import Theyos.Core.Machine.Program
import Theyos.Models.MeshControl.Run.Submission
import Theyos.Models.MeshControl.Store.File

/-!
# Committing through the cell

A commit applies a transition to a fresh reading of the record and writes the result until a write
is known to be durable, rereading after every uncertain outcome only to pick the revision of the
next attempt.
-/

namespace Theyos.MeshControl

open Machine

/-- Why a record could not be made durable. -/
inductive CommitError where
  | retryExhausted
  | recordCorrupt
  | unexpectedDivergence
  deriving DecidableEq, Repr

/-- Why a transition was not committed. -/
inductive CommitTransitionError where
  | noRecord
  | recordCorrupt
  | transition (error : TransitionError)
  | commit (error : CommitError)
  | privilegedTransition
  deriving DecidableEq, Repr

/-- The operating system's answers to one write attempt and the rereading after it. -/
structure AttemptAnswers where
  replace : ReplaceAnswers
  rereadable : Bool

/-- The operating system's answers to one commit. -/
structure CommitAnswers where
  /-- The first reading of the record succeeded. -/
  readable : Bool
  attempts : ℕ → AttemptAnswers

/-- The record path, and the records committed so far with the content after each commit. -/
structure Cell where
  disk : Disk
  committed : List (MeshSignerControlRecordV1 × Disk)

/-- Operations of the cell. -/
abbrev CellProgram := Program CommitTransitionError Cell

section

variable (st : FileBackedStore)

/-- The expected revision of the next attempt, from a rereading after an uncertain one. -/
def nextExpected (expectedRevision : UInt64) (new : MeshSignerControlRecordV1) :
    LoadOutcome → Except CommitError UInt64
  | .exact r =>
    if r = new then .ok r.revision
    else if r.revision = expectedRevision then .ok expectedRevision
    else .error .unexpectedDivergence
  | .missing =>
    if expectedRevision = initialRevision then .ok expectedRevision
    else .error .unexpectedDivergence
  | .corrupt => .error .recordCorrupt

section

variable {A D : Type}
  (replaceExact : A → UInt64 → MeshSignerControlRecordV1 → D → ReplaceOutcome × D)
  (loadCanonical : A → D → LoadOutcome)

/-- Write a record to a store until a write is known to be durable, for a number of attempts. -/
def commitWith (expectedRevision : UInt64) (new : MeshSignerControlRecordV1) :
    ℕ → (ℕ → A) → UInt64 → D → Except CommitError Unit × D
  | 0, _, _, disk => (.error .retryExhausted, disk)
  | attempts + 1, answers, currentExpected, disk =>
    match replaceExact (answers 0) currentExpected new disk with
    | (.committed, disk) => (.ok (), disk)
    | (_, disk) =>
      match nextExpected expectedRevision new (loadCanonical (answers 0) disk) with
      | .ok next => commitWith expectedRevision new attempts (fun i => answers (i + 1)) next disk
      | .error e => (.error e, disk)

end

/-- Write a record to its path. -/
def commitNewBytes (expectedRevision : UInt64) (new : MeshSignerControlRecordV1) :
    ℕ → (ℕ → AttemptAnswers) → UInt64 → Disk → Except CommitError Unit × Disk :=
  commitWith (fun a expected new disk => st.replaceExact disk a.replace expected new)
    (fun a disk => st.loadCanonical disk a.rereadable) expectedRevision new

/-- The attempts a commit makes. -/
def maxAttempts : ℕ := 8

/-- Load the record. -/
def loadRecord (readable : Bool) : CellProgram MeshSignerControlRecordV1 := do
  match st.loadCanonical (← get).disk readable with
  | .exact r => return r
  | .missing => throw .noRecord
  | .corrupt => throw .recordCorrupt

/-- Apply a transition to the loaded record and make the result durable. -/
def commitTransition (base : MeshSignerControlRecordV1) (t : RecordTransition) (now : UInt64)
    (maxCap : ℕ) (attempts : ℕ → AttemptAnswers) : CellProgram MeshSignerControlRecordV1 := do
  match apply st.hashes base t now maxCap with
  | .error e => throw (.transition e)
  | .ok new =>
    let cell ← get
    match commitNewBytes st base.revision new maxAttempts attempts base.revision cell.disk with
    | (.ok _, disk) =>
      set ({ disk, committed := (new, disk) :: cell.committed } : Cell)
      return new
    | (.error e, disk) =>
      set ({ cell with disk } : Cell)
      throw (.commit e)

/-- Transitions that stand for evidence gathered from the backend. -/
def isPrivileged : RecordTransition → Bool
  | .activateFromKeyObserved .. | .gcInspected .. | .gcInspectionConflict .. | .gcResolved ..
  | .gcRemoval .. => true
  | _ => false

/-- Commit a transition that carries no backend evidence. -/
def commit (t : RecordTransition) (now : UInt64) (maxCap : ℕ) (answers : CommitAnswers) :
    CellProgram MeshSignerControlRecordV1 := do
  if isPrivileged t then throw .privilegedTransition
  let base ← loadRecord st answers.readable
  commitTransition st base t now maxCap answers.attempts

/-- Commit the transition built from a fresh reading, if one is built. -/
def commitBuiltPrivileged (build : MeshSignerControlRecordV1 → Option RecordTransition)
    (now : UInt64) (maxCap : ℕ) (answers : CommitAnswers) :
    CellProgram (Option MeshSignerControlRecordV1) := do
  let base ← loadRecord st answers.readable
  match build base with
  | none => return none
  | some t => some <$> commitTransition st base t now maxCap answers.attempts

end

variable {st : FileBackedStore}

/-- What a store may do with a write of a record and with the rereading after it. -/
structure StoreBehaviour where
  outcome : ReplaceOutcome
  /-- An uncertain write took effect. -/
  tookEffect : Bool
  readable : Bool

namespace StoreBehaviour

variable (b : StoreBehaviour) (new disk : MeshSignerControlRecordV1)

/-- The outcome of a write and the record it leaves. -/
def replaceExact : ReplaceOutcome × MeshSignerControlRecordV1 :=
  (b.outcome, if b.outcome = .committed ∨ b.outcome = .mayHaveTakenEffect ∧ b.tookEffect then new
    else disk)

/-- A record under a held guard is read as it is, or not at all. -/
def loadCanonical : LoadOutcome := if b.readable then .exact disk else .corrupt

end StoreBehaviour

variable {base new : MeshSignerControlRecordV1}

/-- A commit is reported only after a write that was, with the new record stored, and it leaves the
base or the new record. -/
def Accountable (base new : MeshSignerControlRecordV1) (attempts : ℕ)
    (behaviours : ℕ → StoreBehaviour)
    (result : Except CommitError Unit × MeshSignerControlRecordV1) : Prop :=
  (result.1 = .ok () → result.2 = new ∧ ∃ i < attempts, (behaviours i).outcome = .committed ∧
    ∀ j < i, (behaviours j).outcome ≠ .committed) ∧
  result.1 ≠ .error .unexpectedDivergence ∧ (result.2 = base ∨ result.2 = new)

theorem commitWith_accountable (attempts : ℕ) (behaviours : ℕ → StoreBehaviour)
    (expected : UInt64) {disk : MeshSignerControlRecordV1} (hdisk : disk = base ∨ disk = new) :
    Accountable base new attempts behaviours
      (commitWith (fun b _ => b.replaceExact) (·.loadCanonical) base.revision new
        attempts behaviours expected disk) := by
  induction attempts generalizing behaviours expected disk with
  | zero => exact ⟨nofun, nofun, hdisk⟩
  | succ attempts ih =>
    have hleft : ((behaviours 0).replaceExact new disk).2 = base ∨
        ((behaviours 0).replaceExact new disk).2 = new := by
      unfold StoreBehaviour.replaceExact
      split
      · exact .inr rfl
      · exact hdisk
    rw [commitWith]
    split
    · next heq =>
      rw [heq] at hleft
      have hcommitted : (behaviours 0).outcome = .committed := congrArg Prod.fst heq
      simp only [StoreBehaviour.replaceExact, hcommitted, true_or, if_true, Prod.mk.injEq] at heq
      exact ⟨fun _ => ⟨heq.2.symm, 0, Nat.succ_pos _, hcommitted, nofun⟩, nofun, hleft⟩
    · next left hne heq =>
      rw [heq] at hleft
      have hfirst : (behaviours 0).outcome ≠ .committed := fun h =>
        hne ((congrArg Prod.fst heq).symm.trans h)
      split
      · next hnext =>
        obtain ⟨hok, hdivergence, hends⟩ := ih (fun i => behaviours (i + 1)) _ hleft
        refine ⟨fun h => ?_, hdivergence, hends⟩
        obtain ⟨hstored, i, hi, hcommitted, hbefore⟩ := hok h
        refine ⟨hstored, i + 1, Nat.succ_lt_succ hi, hcommitted, fun j hj => ?_⟩
        cases j with
        | zero => exact hfirst
        | succ j => exact hbefore j (Nat.lt_of_succ_lt_succ hj)
      · next e hnext =>
        refine ⟨nofun, ?_, hleft⟩
        rintro ⟨⟩
        unfold StoreBehaviour.loadCanonical at hnext
        split at hnext
        · rcases hleft with rfl | rfl <;> simp [nextExpected] at hnext
        · cases hnext

/-- Over every store that keeps its contract, from every base, a commit is accountable. -/
theorem commit_under_contract (base new : MeshSignerControlRecordV1) (attempts : ℕ)
    (behaviours : ℕ → StoreBehaviour) :
    Accountable base new attempts behaviours
      (commitWith (fun b _ => b.replaceExact) (·.loadCanonical) base.revision new
        attempts behaviours base.revision base) :=
  commitWith_accountable attempts behaviours _ (.inl rfl)

/-- The content was left or is the record's bytes, and success means the latter. -/
def Places (st : FileBackedStore) (disk : Disk) (new : MeshSignerControlRecordV1)
    (result : Except CommitError Unit × Disk) : Prop :=
  (result.2 = disk ∨ st.Holds result.2 new) ∧ (result.1 = .ok () → st.Holds result.2 new)

/-- Every number of attempts leaves the content or places the record's bytes. -/
theorem commitNewBytes_places (expectedRevision : UInt64) (new : MeshSignerControlRecordV1)
    (attempts : ℕ) (answers : ℕ → AttemptAnswers) (currentExpected : UInt64) (disk : Disk) :
    Places st disk new
      (commitNewBytes st expectedRevision new attempts answers currentExpected disk) := by
  induction attempts generalizing answers currentExpected disk with
  | zero => exact ⟨.inl rfl, nofun⟩
  | succ attempts ih =>
    have hcases := st.replaceExact_cases disk (answers 0).replace currentExpected new
    rw [commitNewBytes, commitWith]
    rcases hreplace : st.replaceExact disk (answers 0).replace currentExpected new with
      ⟨outcome, disk'⟩
    rw [hreplace] at hcases
    have hplaced : disk' = disk ∧ outcome ≠ .committed ∨ st.Holds disk' new :=
      hcases.imp_right fun ⟨bytes, hbytes, _, hdisk, _⟩ => ⟨bytes, hbytes, hdisk⟩
    have hretry : Places st disk new
        (match nextExpected expectedRevision new
            (st.loadCanonical disk' (answers 0).rereadable) with
        | .ok next =>
          commitNewBytes st expectedRevision new attempts (fun i => answers (i + 1)) next disk'
        | .error e => (.error e, disk')) := by
      have hleft : disk' = disk ∨ st.Holds disk' new := hplaced.imp_left And.left
      split
      · rename_i next _
        obtain ⟨hdisk, hok⟩ := ih (fun i => answers (i + 1)) next disk'
        refine ⟨?_, hok⟩
        rcases hdisk with heq | hholds
        · rw [heq]
          exact hleft
        · exact .inr hholds
      · exact ⟨hleft, nofun⟩
    cases outcome with
    | committed =>
      have hholds : st.Holds disk' new := hplaced.resolve_left fun h => h.2 rfl
      exact ⟨.inr hholds, fun _ => hholds⟩
    | knownNoEffect | mayHaveTakenEffect => exact hretry

/-- A commit failed and changed nothing, or it placed the new record. -/
theorem exec_commitTransition {t : RecordTransition} {now : UInt64} {maxCap : ℕ}
    {attempts : ℕ → AttemptAnswers} {cell after : Cell}
    {result : Except CommitTransitionError MeshSignerControlRecordV1}
    (hexec : (commitTransition st base t now maxCap attempts).exec cell = (result, after)) :
    after = cell ∧ (∃ e, result = .error e) ∨
      ∃ new, apply st.hashes base t now maxCap = .ok new ∧ st.Holds after.disk new ∧
        ((∃ e, result = .error e) ∧ after.committed = cell.committed ∨
          result = .ok new ∧ after.committed = (new, after.disk) :: cell.committed) := by
  unfold commitTransition at hexec
  cases happly : apply st.hashes base t now maxCap with
  | error e =>
    rw [happly] at hexec
    cases hexec
    exact .inl ⟨rfl, _, rfl⟩
  | ok new =>
    obtain ⟨hdisk, hok⟩ :=
      commitNewBytes_places base.revision new maxAttempts attempts base.revision cell.disk
    simp only [happly, Program.exec_bind, Program.exec_get] at hexec
    rcases hcommit : commitNewBytes st base.revision new maxAttempts attempts base.revision
        cell.disk with ⟨_ | _, disk⟩
    · rw [hcommit] at hexec hdisk
      cases hexec
      rcases hdisk with heq | hplaced
      · cases heq
        exact .inl ⟨rfl, _, rfl⟩
      · exact .inr ⟨new, rfl, hplaced, .inl ⟨⟨_, rfl⟩, rfl⟩⟩
    · rw [hcommit] at hexec hok
      cases hexec
      exact .inr ⟨new, rfl, hok rfl, .inr ⟨rfl, rfl⟩⟩

section

variable {I : MeshSignerControlRecordV1 → Prop}

/-- The path holds a record with the property `I`, and every record committed so far is loaded
from the content right after its commit. -/
structure Durable (st : FileBackedStore) (I : MeshSignerControlRecordV1 → Prop) (cell : Cell) :
    Prop where
  held : ∃ r, I r ∧ st.Holds cell.disk r
  loads : ∀ r disk, (r, disk) ∈ cell.committed → st.loadCanonical disk true = .exact r

/-- The path holds the record `r`. -/
def HoldsRecord (st : FileBackedStore) (I : MeshSignerControlRecordV1 → Prop)
    (r : MeshSignerControlRecordV1) (cell : Cell) : Prop :=
  Durable st I cell ∧ I r ∧ st.Holds cell.disk r

theorem Durable.holdsRecord {cell : Cell} (h : Durable st I cell) :
    ∃ r, HoldsRecord st I r cell := by
  obtain ⟨r, hr, hholds⟩ := h.held
  exact ⟨r, h, hr, hholds⟩

/-- A loaded record is the one the path holds. -/
theorem meets_loadRecord (hD : st.Derived) (r : MeshSignerControlRecordV1) (readable : Bool) :
    Meets (HoldsRecord st I r) (loadRecord st readable)
      (fun r' cell => r' = r ∧ HoldsRecord st I r cell) (Durable st I) := by
  rintro cell ⟨hcell, hr, hholds⟩
  simp only [loadRecord, Program.exec_bind, Program.exec_get]
  cases hload : st.loadCanonical cell.disk readable with
  | exact r' => exact ⟨hholds.eq_of_load hD hload, hcell, hr, hholds⟩
  | missing | corrupt => exact hcell

variable (hD : st.Derived)
  (hloads : ∀ disk r, I r → st.Holds disk r → st.loadCanonical disk true = .exact r)

include hloads in
/-- Committing a transition that keeps `I` keeps the cell durable, when every record with `I` is
loaded as it was written. -/
theorem meets_commitTransition
    {base : MeshSignerControlRecordV1} {t : RecordTransition} {now : UInt64} {maxCap : ℕ}
    (hkeeps : ∀ new, I base → apply st.hashes base t now maxCap = .ok new → I new)
    (attempts : ℕ → AttemptAnswers) :
    Meets (HoldsRecord st I base) (commitTransition st base t now maxCap attempts)
      (HoldsRecord st I) (Durable st I) := by
  rintro cell ⟨hcell, hbase, hholds⟩
  rcases hexec : (commitTransition st base t now maxCap attempts).exec cell with ⟨result, after⟩
  rcases exec_commitTransition hexec with ⟨rfl, _, rfl⟩ | ⟨new, happly, hplaced, houtcome⟩
  · exact hcell
  have hnew := hkeeps new hbase happly
  rcases houtcome with ⟨⟨_, rfl⟩, hcommitted⟩ | ⟨rfl, hcommitted⟩
  · exact ⟨⟨new, hnew, hplaced⟩, hcommitted ▸ hcell.loads⟩
  · refine ⟨⟨⟨new, hnew, hplaced⟩, fun r d hmem => ?_⟩, hnew, hplaced⟩
    rw [hcommitted] at hmem
    rcases List.mem_cons.mp hmem with heq | hmem
    · cases heq
      exact hloads _ new hnew hplaced
    · exact hcell.loads r d hmem

include hD hloads

/-- Committing what is built from the record the path holds keeps the cell durable. -/
theorem meets_commitBuiltPrivileged
    {build : MeshSignerControlRecordV1 → Option RecordTransition} {now : UInt64} {maxCap : ℕ}
    {r : MeshSignerControlRecordV1}
    (hkeeps : ∀ t new, build r = some t → I r → apply st.hashes r t now maxCap = .ok new → I new)
    (answers : CommitAnswers) :
    Meets (HoldsRecord st I r) (commitBuiltPrivileged st build now maxCap answers)
      (fun _ => Durable st I) (Durable st I) := by
  refine .bind (meets_loadRecord hD r answers.readable) fun base => .assume ?_
  rintro rfl
  cases hbuild : build base with
  | none => exact .pure fun _ h => h.1
  | some t =>
    refine .bind (meets_commitTransition hloads (hkeeps t · hbuild) answers.attempts) fun new => ?_
    exact .pure fun _ h => h.1

/-- Committing a transition without backend evidence keeps the cell durable. -/
theorem meets_commit {t : RecordTransition} {now : UInt64} {maxCap : ℕ}
    (hkeeps : ∀ r new, isPrivileged t = false → I r → apply st.hashes r t now maxCap = .ok new →
      I new)
    (answers : CommitAnswers) :
    Meets (Durable st I) (commit st t now maxCap answers) (fun _ => Durable st I)
      (Durable st I) := by
  refine .of_exists (fun _ h => h.holdsRecord) fun r => ?_
  unfold commit
  cases hpriv : isPrivileged t with
  | true => exact fun _ h => h.1
  | false =>
    refine .bind (meets_loadRecord hD r answers.readable) fun base => .assume ?_
    rintro rfl
    exact (meets_commitTransition hloads (hkeeps base · hpriv) answers.attempts).mono
      (fun _ h => h) fun _ _ h => h.1

end

end Theyos.MeshControl

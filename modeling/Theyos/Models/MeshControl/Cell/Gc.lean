import Theyos.Models.MeshControl.Cell.Commit

/-!
# Garbage collection through the cell

A tick works through the queued slots one at a time: it inspects slots whose key was never
observed, destroys keys whose binding is known after making the record durable once more, and
writes every result through a commit of its own.
-/

namespace Theyos.MeshControl

open Machine

/-- What an inspection of a slot found. -/
inductive InspectOutcome where
  | present (binding : ExactBinding)
  | absent
  | indeterminate
  | conflict
  deriving DecidableEq, Repr

/-- What an attempt to destroy a key reports. -/
structure GcReport where
  attempted : Bool
  residual : Bool
  observationComplete : Bool
  mismatch : Bool
  deriving DecidableEq, Repr

/-- The environment's answers to one iteration of a tick. -/
structure TickAnswers where
  /-- The reading of the record succeeded. -/
  readable : Bool
  inspect : SlotId → InspectOutcome
  gcBestEffort : SlotId → ExactBinding → GcReport
  /-- The answers to the iteration's first commit. -/
  first : CommitAnswers
  /-- The answers to the commit after a destruction. -/
  second : CommitAnswers

/-- The local state of a tick. -/
structure TickState where
  resolvedCount : ℕ
  indeterminateThisTick : List String
  inspectedThisTick : List String
  boundAttemptedThisTick : List String
  deriving DecidableEq, Repr

namespace TickState

/-- At the start of a tick. -/
def init : TickState := ⟨0, [], [], []⟩

/-- Whether an entry is still to be worked on in this tick. -/
def selects (H : Hashes) (l : TickState) (e : GcEntry) : Bool :=
  !e.observationCompleteAndResidualZero &&
    !l.indeterminateThisTick.contains (e.slot.canonicalId H) &&
    match e with
    | .bound _ _ _ .quarantine | .inspectionConflict _ _ => false
    | .awaitingInspection slot _ | .absentUnconfirmed slot _ =>
      !l.inspectedThisTick.contains (slot.canonicalId H)
    | .bound slot _ _ _ => !l.boundAttemptedThisTick.contains (slot.canonicalId H)
    | .absent _ _ => true

variable (l : TickState)

/-- Set a slot aside until the next tick. -/
def setAside (slotId : String) : TickState :=
  { l with indeterminateThisTick := slotId :: l.indeterminateThisTick }

/-- Note a slot's inspection. -/
def inspected (slotId : String) : TickState :=
  { l with inspectedThisTick := slotId :: l.inspectedThisTick }

/-- Note an attempted destruction. -/
def attempted (slotId : String) : TickState :=
  { l with boundAttemptedThisTick := slotId :: l.boundAttemptedThisTick }

/-- Count a result that was committed. -/
def count (committed : Option MeshSignerControlRecordV1) : TickState :=
  if committed.isSome then { l with resolvedCount := l.resolvedCount + 1 } else l

end TickState

/-- A transition to commit as long as an entry of the slot and transaction is queued. -/
def ifQueued (H : Hashes) (slotId : String) (txnId : TxnId) (t : RecordTransition)
    (fresh : MeshSignerControlRecordV1) : Option RecordTransition :=
  if fresh.gcPending.any fun e => e.slot.canonicalId H = slotId ∧ e.txnId = txnId then some t
  else none

section

variable (st : FileBackedStore) (now : UInt64) (maxCap : ℕ)

variable (a : TickAnswers) (l : TickState)

/-- Inspect a slot and commit what was found. -/
def inspectSlot (slot : SlotId) (txnId : TxnId) :
    CellProgram TickState := do
  let slotId := slot.canonicalId st.hashes
  let l := l.inspected slotId
  match a.inspect slot with
  | .indeterminate => return l.setAside slotId
  | .conflict =>
    l.count <$> commitBuiltPrivileged st
      (ifQueued st.hashes slotId txnId (.gcInspectionConflict slotId)) now maxCap a.first
  | .present b =>
    l.count <$> commitBuiltPrivileged st
      (ifQueued st.hashes slotId txnId (.gcInspected slotId (some b))) now maxCap a.first
  | .absent =>
    l.count <$> commitBuiltPrivileged st
      (ifQueued st.hashes slotId txnId (.gcInspected slotId none)) now maxCap a.first

/-- Make the record durable once more, destroy the key of a slot and commit the report. -/
def destroySlot (slot : SlotId) (txnId : TxnId)
    (binding : ExactBinding) : CellProgram TickState := do
  let slotId := slot.canonicalId st.hashes
  let l := l.attempted slotId
  match ← commitBuiltPrivileged st (ifQueued st.hashes slotId txnId .stabilizationRewrite)
      now maxCap a.first with
  | none => return l
  | some _ =>
    let report := a.gcBestEffort slot binding
    if report.observationComplete then
      l.count <$> commitBuiltPrivileged st
        (ifQueued st.hashes slotId txnId (.gcResolved slotId (!report.residual) report.mismatch))
        now maxCap a.second
    else return l.setAside slotId

/-- One iteration of a tick; no local state is left when no entry was selected. -/
def gcTickOnce : CellProgram (Option TickState) := do
  let rec' ← loadRecord st a.readable
  match rec'.gcPending.find? (l.selects st.hashes) with
  | some (.awaitingInspection slot txnId) | some (.absentUnconfirmed slot txnId) =>
    some <$> inspectSlot st now maxCap a l slot txnId
  | some (.bound slot txnId binding _) =>
    some <$> destroySlot st now maxCap a l slot txnId binding
  | some (.absent _ _) | some (.inspectionConflict _ _) | none => return none

/-- A tick over the answers given; no count is returned when they end before the tick does. -/
def gcWorkerTick : List TickAnswers → TickState → CellProgram (Option ℕ)
  | [], _ => return none
  | a :: answers, l => do
    match ← gcTickOnce st now maxCap a l with
    | none => return some l.resolvedCount
    | some l => gcWorkerTick answers l

/-- The removal of the first resolved entry. -/
def firstRemoval (H : Hashes) (fresh : MeshSignerControlRecordV1) : Option RecordTransition :=
  (fresh.gcPending.find? fun
    | .bound _ _ _ .done | .absent _ _ => true
    | _ => false).map fun e => .gcRemoval (e.slot.canonicalId H) e.txnId

/-- A removal pass over the answers given. -/
def gcRemovalPass : List CommitAnswers → ℕ → CellProgram (Option ℕ)
  | [], _ => return none
  | a :: answers, removed => do
    match ← commitBuiltPrivileged st (firstRemoval st.hashes) now maxCap a with
    | some _ => gcRemovalPass answers (removed + 1)
    | none => return some removed

end

end Theyos.MeshControl

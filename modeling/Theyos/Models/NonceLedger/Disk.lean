import Theyos.Core.Machine.Program
import Theyos.Core.Store.Volatile
import Theyos.Models.NonceLedger.Record

/-!
# The files of the ledger

The record is replaced through a temporary file: it is written and synced, renamed over the
record, and the directory is synced. Until then a loss of power may bring the earlier record back.
-/

namespace Theyos.NonceLedger

open Machine

/-- The marker of a ledger that is being set up. -/
def markerInitializing : List UInt8 := [0x4d, 0x53, 0x4e, 0x4c, 0x31, 0x3a, 0x49, 0x0a]

/-- The marker of a record that lasts. -/
def markerClean : List UInt8 := [0x4d, 0x53, 0x4e, 0x4c, 0x31, 0x3a, 0x43, 0x0a]

/-- The marker of a record that is being replaced. -/
def markerDirty : List UInt8 := [0x4d, 0x53, 0x4e, 0x4c, 0x31, 0x3a, 0x44, 0x0a]

/-- The files of a ledger. -/
structure Disk where
  record : Volatile (Option (List UInt8))
  marker : Volatile (List UInt8)
  /-- Whether a temporary file is there. -/
  temp : Bool

/-- The files before a ledger is first opened. -/
def Disk.blank : Disk := ⟨.settled none, .settled [], false⟩

/-- What a loss of power leaves. -/
structure Leftover where
  record : ℕ
  marker : ℕ
  temp : Bool

/-- Lose power. -/
def Disk.lose (disk : Disk) (left : Leftover) : Disk :=
  ⟨disk.record.lose left.record, disk.marker.lose left.marker, left.temp⟩

/-- How far a write of the marker gets. -/
inductive MarkerFate where
  | untouched
  /-- Only some bytes are written. -/
  | torn (written : ℕ)
  /-- All bytes are written and the sync fails. -/
  | unsynced
  | written

/-- Why a file is not read. -/
inductive ReadFault where
  | unsafePath
  | io

/-- How a failed read is reported. -/
def ReadFault.toUnavailable : ReadFault → MeshIntentNonceUnavailable
  | unsafePath => .unsafePath
  | io => .io

/-- Which steps of a replacement fail. -/
structure ReplaceFaults where
  fails : MeshIntentNonceCommitStage → Bool
  /-- Whether a failed cleanup has removed the temporary file. -/
  unlinked : Bool

/-- Why a replacement is not confirmed. -/
inductive WriteFailure where
  | notCommitted (stage : MeshIntentNonceCommitStage)
  | uncertain (stage : MeshIntentNonceCommitStage)

/-- Read the marker; an empty one is none. -/
def readMarker (fails : Bool) : Program Unit Disk (Option (List UInt8)) := do
  Program.require (¬ fails) ()
  let bytes := (← get).marker.visible.take 32
  return if bytes.isEmpty then none else some bytes

/-- Overwrite the marker. -/
def writeMarker {ε : Type} (fate : MarkerFate) (marker : List UInt8) (writeError syncError : ε) :
    Program ε Disk Unit :=
  match fate with
  | .untouched => throw writeError
  | .torn n => do
    modify fun disk =>
      { disk with marker := disk.marker.overwrite (marker.take n) (marker.take n).inits }
    throw writeError
  | .unsynced => do
    modify fun disk => { disk with marker := disk.marker.overwrite marker marker.inits }
    throw syncError
  | .written => modify fun disk => { disk with marker := .settled marker }

/-- Overwrite the marker without telling the stages apart. -/
def writeMarkerRaw (fate : MarkerFate) (marker : List UInt8) : Program Unit Disk Unit :=
  writeMarker fate marker () ()

/-- Overwrite the marker and name the stage that fails. -/
def writeMarkerStaged (fate : MarkerFate) (marker : List UInt8)
    (writeStage syncStage : MeshIntentNonceCommitStage) :
    Program MeshIntentNonceCommitStage Disk Unit :=
  writeMarker fate marker writeStage syncStage

/-- Read the bytes of the record, if it is there. -/
def readOptionalRecord (fault : Option ReadFault) :
    Program MeshIntentNonceUnavailable Disk (Option (List UInt8)) := do
  match fault with
  | some fault => throw fault.toUnavailable
  | none =>
    match (← get).record.visible with
    | none => return none
    | some bytes =>
      Program.require (bytes.length ≤ maxRecordBytes) .recordTooLarge
      return some bytes

/-- Read the bytes of a record that must be there. -/
def readRecordBytes (fault : Option ReadFault) :
    Program MeshIntentNonceUnavailable Disk (List UInt8) := do
  let bytes ← readOptionalRecord fault
  Program.ofExcept (okOr bytes .corruptRecord)

namespace ReplaceFaults

variable (faults : ReplaceFaults)

/-- Take a step that does not touch the record when it fails. -/
def step (stage : MeshIntentNonceCommitStage) : Program WriteFailure Disk Unit :=
  Program.require (¬ faults.fails stage) (.notCommitted stage)

/-- Take a step after the rename. -/
def confirm (stage : MeshIntentNonceCommitStage) : Program WriteFailure Disk Unit :=
  Program.require (¬ faults.fails stage) (.uncertain stage)

/-- Remove a temporary file that is in the way. -/
def removeTemp : Program WriteFailure Disk Unit := do
  faults.step .tempInspect
  if (← get).temp then
    if faults.fails .tempCleanup then
      modify fun disk => { disk with temp := !faults.unlinked }
      throw (.notCommitted .tempCleanup)
    else
      modify fun disk => { disk with temp := false, record := disk.record.sync }

/-- Write the bytes to a temporary file. -/
def writeTemp : Program WriteFailure Disk Unit := do
  faults.step .tempOpen
  modify fun disk => { disk with temp := true }
  faults.step .tempWrite
  faults.step .tempFlush
  faults.step .tempSync

end ReplaceFaults

/-- Replace the record, make it last and read it back. -/
def atomicReplace (faults : ReplaceFaults) (canonical : List UInt8) :
    Program WriteFailure Disk Unit := do
  faults.removeTemp
  faults.writeTemp
  faults.step .rename
  modify fun disk => { disk with temp := false, record := disk.record.replace (some canonical) }
  faults.confirm .parentSync
  modify fun disk => { disk with record := disk.record.sync }
  faults.confirm .readback
  let readback ← (readRecordBytes none).adapt fun _ => WriteFailure.uncertain .readback
  Program.require (readback = canonical ∧ ¬ faults.fails .readbackMismatch)
    (.uncertain .readbackMismatch)

section

variable {disk : Disk}

/-- A write of the marker leaves the record alone; when it fails, part of the marker may be
left. -/
theorem writeMarker_spec {ε : Type} (fate : MarkerFate) (marker : List UInt8)
    (writeError syncError : ε) :
    Ends (· = disk) (writeMarker fate marker writeError syncError)
      (fun _ after => after.record = disk.record ∧ after.marker = .settled marker)
      (fun _ after => after.record = disk.record ∧
        ∀ m ∈ after.marker.survivors, m <+: marker ∨ m ∈ disk.marker.survivors) := by
  rintro _ rfl
  cases fate with
  | untouched => exact ⟨rfl, fun m hm => .inr hm⟩
  | torn n =>
    refine ⟨rfl, fun m hm => ?_⟩
    have htake : marker.take n <+: marker := List.take_prefix n marker
    rcases List.mem_cons.mp hm with rfl | hm
    · exact .inl htake
    · exact (List.mem_append.mp hm).imp_left fun h => ((List.mem_inits m _).mp h).trans htake
  | unsynced =>
    refine ⟨rfl, fun m hm => ?_⟩
    rcases List.mem_cons.mp hm with rfl | hm
    · exact .inl (List.prefix_refl _)
    · exact (List.mem_append.mp hm).imp_left (List.mem_inits m _).mp
  | written => exact ⟨rfl, rfl⟩

/-- The content read is the one that is seen. -/
theorem readOptionalRecord_spec (fault : Option ReadFault) :
    Ends (· = disk) (readOptionalRecord fault)
      (fun content after => after = disk ∧ disk.record.visible = content)
      (fun _ after => after = disk) := by
  cases fault with
  | some fault => exact .throw fun _ h => h
  | none =>
    refine .get_bind fun before hbefore => ?_
    subst hbefore
    cases hvisible : before.record.visible with
    | none => exact .pure fun _ h => ⟨h, rfl⟩
    | some bytes =>
      exact .require_bind (fun _ => .pure fun _ h => ⟨h, rfl⟩) fun _ h => h

theorem readRecordBytes_spec (fault : Option ReadFault) :
    Ends (· = disk) (readRecordBytes fault)
      (fun bytes after => after = disk ∧ disk.record.visible = some bytes)
      (fun _ after => after = disk) := by
  refine .bind (readOptionalRecord_spec fault) fun content => ?_
  refine .ofExcept (fun bytes h _ hs => ?_) fun _ _ _ hs => hs.1
  rw [okOr_eq_ok] at h
  exact h ▸ hs

/-- Nothing new can be left, and what is seen is the same. -/
structure Disk.Shrunk (disk after : Disk) : Prop where
  visible : after.record.visible = disk.record.visible
  record : ∀ c ∈ after.record.survivors, c ∈ disk.record.survivors
  marker : after.marker = disk.marker

theorem Disk.Shrunk.temp {disk after : Disk} (h : disk.Shrunk after) (temp : Bool) :
    disk.Shrunk { after with temp := temp } :=
  ⟨h.visible, h.record, h.marker⟩

/-- What can be left of the record after a failed replacement. -/
def WriteFailure.Leaves (disk : Disk) (canonical : List UInt8) : WriteFailure → Disk → Prop
  | .notCommitted _, after => disk.Shrunk after
  | .uncertain _, after => after.marker = disk.marker ∧
      ∀ c ∈ after.record.survivors, c = some canonical ∨ c ∈ disk.record.survivors

namespace ReplaceFaults

variable (faults : ReplaceFaults) {canonical : List UInt8}

theorem step_bind {α : Type} {stage : MeshIntentNonceCommitStage}
    {f : Unit → Program WriteFailure Disk α} {Q : α → Disk → Prop}
    (h : Ends disk.Shrunk (f ()) Q (WriteFailure.Leaves disk canonical)) :
    Ends disk.Shrunk (faults.step stage >>= f) Q (WriteFailure.Leaves disk canonical) :=
  .require_bind (fun _ => h) fun _ hs => hs

theorem removeTemp_spec :
    Ends disk.Shrunk faults.removeTemp (fun _ => disk.Shrunk)
      (WriteFailure.Leaves disk canonical) := by
  refine faults.step_bind (.get_bind fun before hbefore => ?_)
  split
  · split
    · exact .update_bind (fun _ h => h ▸ hbefore.temp _) (.throw fun _ h => h)
    · rintro _ rfl
      exact ⟨hbefore.visible, fun c hc => hbefore.record c (Volatile.mem_survivors_sync hc),
        hbefore.marker⟩
  · exact .pure fun _ h => h ▸ hbefore

theorem writeTemp_spec :
    Ends disk.Shrunk faults.writeTemp (fun _ => disk.Shrunk)
      (WriteFailure.Leaves disk canonical) := by
  refine faults.step_bind (.update_bind (fun _ h => h.temp true) ?_)
  exact faults.step_bind (faults.step_bind (.require (fun _ _ h => h) fun _ h => h))

end ReplaceFaults

/-- A replacement that is confirmed cannot be lost, and one that fails leaves the earlier
contents or the new one. -/
theorem atomicReplace_spec (faults : ReplaceFaults) (canonical : List UInt8) :
    Ends (· = disk) (atomicReplace faults canonical)
      (fun _ after => after.record = .settled (some canonical) ∧ after.marker = disk.marker)
      (WriteFailure.Leaves disk canonical) := by
  refine .bind
    (faults.removeTemp_spec.mono ?_ (fun _ _ h => h) fun _ _ h => h) fun _ => ?_
  · rintro _ rfl
    exact ⟨rfl, fun _ h => h, rfl⟩
  refine .bind faults.writeTemp_spec fun _ => faults.step_bind ?_
  refine .update_bind (M := fun after => after.marker = disk.marker ∧
    after.record.visible = some canonical ∧
    ∀ c ∈ after.record.survivors, c = some canonical ∨ c ∈ disk.record.survivors) ?_ ?_
  · exact fun before h =>
      ⟨h.marker, rfl, fun c hc => (List.mem_cons.mp hc).imp_right (h.record c)⟩
  refine .require_bind (fun _ => ?_) fun _ h => ⟨h.1, h.2.2⟩
  refine .update_bind
    (M := fun after => after.record = .settled (some canonical) ∧ after.marker = disk.marker) ?_ ?_
  · exact fun before h => ⟨congrArg Volatile.settled h.2.1, h.1⟩
  have hleaves : ∀ stage (after : Disk),
      after.record = .settled (some canonical) ∧ after.marker = disk.marker →
      WriteFailure.Leaves disk canonical (.uncertain stage) after := by
    rintro stage after ⟨hrecord, hmarker⟩
    exact ⟨hmarker, fun c hc => .inl (by rw [hrecord] at hc; simpa using hc)⟩
  refine .require_bind (fun _ => ?_) (hleaves _)
  refine .bind (.adapt fun before hbefore => ?_) fun _ => .require (fun _ _ h => h) (hleaves _)
  exact ((readRecordBytes_spec none).weaken (fun _ _ h => h.1 ▸ hbefore)
    fun _ _ h => hleaves _ _ (h ▸ hbefore)) before rfl

end

end Theyos.NonceLedger

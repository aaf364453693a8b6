import Theyos.Core.Machine.Conduct
import Theyos.Models.Instances.Frame

/-!
# Each part of a flow keeps the leases true

The parts of the flows one by one: which of them keep what is to hold of the instances, and
under which condition on the machine and on the leases.
-/

namespace Theyos.Instances

open Lease LeaseTable World

/-- A runtime lease of the instance stands. -/
def Leased (w : World) (id : String) : Prop := ∃ size, Standing w.leases (runtimeKey id) size

variable {id : String} {row : InstanceRow} {w : World}

/-- A lease that stands has the size of the row. -/
theorem TrueOf.standing (h : TrueOf w id) (hrow : w.rows id = some row) (hleased : Leased w id) :
    Standing w.leases (runtimeKey id) row.size := by
  obtain ⟨size, hstanding⟩ := hleased
  rw [← h.sized row size hrow hstanding]
  exact hstanding

theorem World.rows_updateStatus (hrow : w.rows id = some row) (status : InstanceStatus) :
    (w.updateStatus id status).rows id = some { row with status } := by
  simp [updateStatus, updateRow, hrow]

namespace Truthful

section

variable (hw : Truthful w) (hrow : w.rows id = some row)

include hw hrow

/-- A machine is started only for an instance whose lease stands. -/
theorem setVm {running : Bool} (hrunning : running → w.vms row.container ∨ Leased w id) :
    Truthful (w.setVm row.container running) := by
  have h := hw.all id
  refine (Touches.setVm hrow running).truthful hrow hw ⟨fun found hfound hvm => ?_, h.belongs,
    h.sized⟩
  obtain rfl : row = found := Option.some.inj (hrow.symm.trans hfound)
  have hvm : running := by simpa [World.setVm] using hvm
  rcases hrunning hvm with hvm | hleased
  · exact h.held row hrow hvm
  · exact h.standing hrow hleased

theorem updateStatus (status : InstanceStatus) : Truthful (w.updateStatus id status) := by
  have h := hw.all id
  have hafter := rows_updateStatus hrow status
  refine (Touches.updateStatus hrow status).truthful hrow hw
    ⟨fun found hfound hvm => ?_, fun key size hkey howner hstanding => ?_,
      fun found size hfound hstanding => ?_⟩
  · obtain rfl := Option.some.inj (hafter.symm.trans hfound)
    exact h.held row hrow hvm
  · obtain ⟨found, hfound, hdeleted⟩ := h.belongs key size hkey howner hstanding
    obtain rfl := Option.some.inj (hrow.symm.trans hfound)
    exact ⟨_, hafter, hdeleted⟩
  · obtain rfl := Option.some.inj (hafter.symm.trans hfound)
    exact h.sized row size hrow hstanding

variable (hvm : w.vms row.container = false)

include hvm

/-- Leases are taken away from an instance whose machine does not run. -/
theorem lessLeases {leases : LeaseTable} (htouches : Touches id row w { w with leases })
    (hleases : ∀ key size, Standing leases key size → Standing w.leases key size) :
    Truthful { w with leases } := by
  have h := hw.all id
  refine htouches.truthful hrow hw ⟨fun found hfound hrunning => ?_,
    fun key size hkey howner hstanding => h.belongs key size hkey howner (hleases key size hstanding),
    fun found size hfound hstanding => h.sized found size hfound (hleases _ _ hstanding)⟩
  obtain rfl := Option.some.inj (hrow.symm.trans hfound)
  exact absurd (hvm.symm.trans hrunning) Bool.false_ne_true

theorem releaseRuntimeLease : Truthful (w.releaseRuntimeLease id) :=
  hw.lessLeases hrow hvm (Touches.releaseRuntimeLease hrow) fun _ _ h =>
    (standing_releaseLease.mp h).2

theorem releaseInstanceLeases : Truthful (w.releaseInstanceLeases id) :=
  hw.lessLeases hrow hvm (Touches.releaseInstanceLeases hrow) fun _ _ h =>
    (standing_releaseAllLeases.mp h).2

end

variable (hw : Truthful w)

include hw

/-- The leases that stand stay the same. -/
theorem sameLeases {leases : LeaseTable}
    (hleases : ∀ key size, Standing leases key size ↔ Standing w.leases key size) :
    Truthful { w with leases } := by
  refine ⟨hw.indexed, fun other => ?_⟩
  have h := hw.all other
  exact ⟨fun found hfound hvm => (hleases _ _).mpr (h.held found hfound hvm),
    fun key size hkey howner hstanding => h.belongs key size hkey howner ((hleases _ _).mp hstanding),
    fun found size hfound hstanding => h.sized found size hfound ((hleases _ _).mp hstanding)⟩

/-- The leases of an owner without a row are released; there are none. -/
theorem releaseOrphanLeases (hrow : w.rows id = none) : Truthful (w.releaseInstanceLeases id) := by
  have hsame : ∀ key size, Standing (w.releaseInstanceLeases id).leases key size ↔
      Standing w.leases key size := by
    refine fun key size => standing_releaseAllLeases.trans (and_iff_right_of_imp fun hstanding => ?_)
    rintro ⟨hkey, howner⟩
    obtain ⟨found, hfound, -⟩ := (hw.all id).belongs key size hkey howner hstanding
    exact absurd (hrow.symm.trans hfound) nofun
  exact hw.sameLeases hsame

/-- An instance that is not deleted is given a lease of its size. -/
theorem createLease (hrow : w.rows id = some row) (hdeleted : row.deletedAt = none)
    {leases : LeaseTable}
    (hcreate : LeaseTable.createLease w.now
      (Capacity.restartLease id row.cpuCores row.ramConfigMb) w.leases = some leases) :
    Truthful { w with leases } := by
  have h := hw.all id
  have hstanding : ∀ key size, Standing leases key size ↔ Standing w.leases key size ∨
      key = runtimeKey id ∧ size = row.size := fun _ _ => standing_createLease hcreate
  refine (Touches.createLease hrow hcreate).truthful hrow hw ⟨fun found hfound hvm => ?_,
    fun key size hkey howner _ => ⟨row, hrow, hdeleted⟩, fun found size hfound hafter => ?_⟩
  · exact (hstanding _ _).mpr (.inl (h.held found hfound hvm))
  · rcases (hstanding _ _).mp hafter with hbefore | ⟨-, rfl⟩
    · exact h.sized found size hfound hbefore
    · obtain rfl := Option.some.inj (hrow.symm.trans hfound)
      rfl

/-- A machine dies. -/
theorem vmDies (container : String) : Truthful (w.setVm container false) := by
  refine ⟨hw.indexed, fun other => ?_⟩
  have h := hw.all other
  refine ⟨fun found hfound hvm => h.held found hfound ?_, h.belongs, h.sized⟩
  by_cases hcontainer : found.container = container
  · simp [World.setVm, hcontainer] at hvm
  · simpa [World.setVm, hcontainer] using hvm

end Truthful

theorem World.rows_softDelete (hrow : w.rows id = some row) :
    (w.softDelete id).rows id = some { row with deletedAt := some w.now, status := .stopped } := by
  simp [softDelete, updateRow, hrow]

@[simp]
theorem World.vms_setVm_self (w : World) (container : String) (running : Bool) :
    (w.setVm container running).vms container = running :=
  Function.update_self ..

theorem World.vms_executeDelete (w : World) (id container : String) (stop delete : Call)
    (cleanupFs : Bool) : (w.executeDelete id container stop delete cleanupFs).vms container =
      delete.survived (stop.survived (w.vms container)) := by
  cases cleanupFs <;>
    simp [executeDelete, softDelete, updateRow, releaseStorageLease, releaseRuntimeLease, setVm]

/-- The delete flow touches its own instance. -/
theorem Touches.executeDelete (hrow : w.rows id = some row) (stop delete : Call)
    (cleanupFs : Bool) :
    Touches id row w (w.executeDelete id row.container stop delete cleanupFs) := by
  have hstopped : Touches id row w
      ((w.setVm row.container (stop.survived (w.vms row.container))).releaseRuntimeLease id) :=
    (Touches.setVm hrow _).trans fun row' hrow' => .releaseRuntimeLease hrow'
  have hdeleted (running : Bool) : Touches id row w
      (((w.setVm row.container (stop.survived (w.vms row.container))).releaseRuntimeLease id).setVm
        row.container running) := by
    refine hstopped.trans fun row' hrow' => ?_
    obtain rfl : row = row' := Option.some.inj (hrow.symm.trans hrow')
    exact .setVm hrow' _
  cases cleanupFs with
  | false => exact (hdeleted _).trans fun row' hrow' => .softDelete hrow'
  | true =>
    exact ((hdeleted _).trans fun row' hrow' => .releaseStorageLease hrow').trans
      fun row' hrow' => .softDelete hrow'

theorem Touches.beginCreate (hrow : w.rows id = some row) :
    Touches id row w (w.beginCreate id) := by
  refine (Touches.updateStatus hrow .provisioning).trans fun row' hrow' => ?_
  exact .withLeases hrow' fun _ _ _ => standing_extendLease

/-- The create flow touches its own instance. -/
theorem Touches.endCreate (hrow : w.rows id = some row) (create cleanup : Call) :
    Touches id row w (w.endCreate id row.container create cleanup) := by
  cases create with
  | ok =>
    have hactive := (Touches.setVm hrow true).trans fun row' hrow' => .updateStatus hrow' .active
    exact hactive.trans fun row' hrow' => .withLeases hrow' fun _ _ _ => standing_finalizeLease
  | failed running =>
    exact (Touches.setVm hrow _).trans fun row' hrow' => .releaseInstanceLeases hrow'

namespace Truthful

section

variable (hw : Truthful w)

include hw

/-- A stop request releases the lease of a machine that is stopped. -/
theorem stopInstance (id : String) (call : Call) : Truthful (w.stopInstance id call) := by
  rw [World.stopInstance]
  cases hrow : w.rows id with
  | none => exact hw
  | some row =>
    cases call with
    | ok =>
      have hmarked := (hw.vmDies row.container).updateStatus hrow .stopped
      have hrow' := rows_updateStatus hrow .stopped
      have hreleased := hmarked.releaseRuntimeLease hrow' (w.vms_setVm_self row.container false)
      exact hreleased.updateStatus hrow' .stopped
    | failed running =>
      exact hw.setVm hrow fun hrunning => .inl (Bool.and_eq_true_iff.mp hrunning).1

/-- A flow that brings the machine up finds its lease standing. -/
theorem boot (hrow : w.rows id = some row) (call : Call)
    (hleased : call.started → w.vms row.container ∨ Leased w id) (status : InstanceStatus) :
    Truthful (match w.executeBoot id row.container call with
      | (w, true) => w.updateStatus id status
      | (w, false) => w) := by
  cases call with
  | ok =>
    have hbooted := hw.setVm hrow hleased
    have hrow' := rows_updateStatus hrow .active
    exact (hbooted.updateStatus hrow .active).updateStatus hrow' status
  | failed running => exact hw.setVm hrow hleased

/-- A rebuild request of an instance whose lease stands. -/
theorem rebuildInstance {call : Call} (hleased : Leased w id) :
    Truthful (w.rebuildInstance id call) := by
  rw [World.rebuildInstance]
  cases hrow : w.rows id with
  | none => exact hw
  | some row => exact hw.boot hrow call (fun _ => .inr hleased) .active

/-- A restart request of an instance that is not deleted, which leaves no machine running when
it gives its lease back. -/
theorem restartInstance {admitted : Bool} {call : Call}
    (hdeleted : ∀ row, w.rows id = some row → row.deletedAt = none)
    (hcall : call = .failed true → hasActiveLease w.now (runtimeKey id) w.leases) :
    Truthful (w.restartInstance id admitted call) := by
  rw [World.restartInstance]
  cases hrow : w.rows id with
  | none => exact hw
  | some row =>
    dsimp only
    split
    · rename_i hactive
      exact hw.boot hrow call (fun _ => .inr (standing_of_hasActiveLease hactive)) .active
    · rename_i hactive
      split
      · split
        · exact hw
        · rename_i leases hcreate
          have hleased : Leased { w with leases } id :=
            ⟨row.size, (standing_createLease hcreate).mpr (.inr ⟨rfl, rfl⟩)⟩
          have htaken := hw.createLease hrow (hdeleted row hrow) hcreate
          cases call with
          | ok => exact htaken.boot hrow .ok (fun _ => .inr hleased) .active
          | failed running =>
            cases running with
            | true => exact absurd (hcall rfl) hactive
            | false =>
              have hdead := htaken.vmDies row.container
              exact hdead.releaseRuntimeLease hrow (World.vms_setVm_self ..)
      · exact hw

/-- An instance is brought up and given a lease, unless one is active. -/
theorem bootAndLease (hrow : w.rows id = some row) (hdeleted : row.deletedAt = none) :
    Truthful (((w.setVm row.container true).updateStatus id .active).ensureRestartedRuntimeLease id
      row.cpuCores row.ramConfigMb) := by
  rw [ensureRestartedRuntimeLease]
  split
  · rename_i hactive
    exact (hw.setVm hrow fun _ => .inr (standing_of_hasActiveLease hactive)).updateStatus
      hrow .active
  · cases hcreate : LeaseTable.createLease
      ((w.setVm row.container true).updateStatus id .active).now
      (Capacity.restartLease id row.cpuCores row.ramConfigMb)
      ((w.setVm row.container true).updateStatus id .active).leases with
    | none =>
      have hleased : Leased w id := standing_of_createLease_eq_none rfl hcreate
      exact (hw.setVm hrow fun _ => .inr hleased).updateStatus hrow .active
    | some leases =>
      have htaken := hw.createLease hrow hdeleted hcreate
      have hleased : Leased { w with leases } id :=
        ⟨row.size, (standing_createLease hcreate).mpr (.inr ⟨rfl, rfl⟩)⟩
      exact (htaken.setVm hrow fun _ => .inr hleased).updateStatus hrow .active

/-- A restart after a restart of the server, which leaves no machine running when it fails for
an instance without a lease. -/
theorem autoRestart {call : Call} (hdeleted : ∀ row, w.rows id = some row → row.deletedAt = none)
    (hcall : call = .failed true → Leased w id) : Truthful (w.autoRestart id call) := by
  rw [World.autoRestart]
  cases hrow : w.rows id with
  | none => exact hw
  | some row =>
    cases call with
    | failed running =>
      exact hw.setVm hrow fun hrunning => .inr (hcall (congrArg Call.failed hrunning))
    | ok => exact hw.bootAndLease hrow (hdeleted row hrow)

/-- A delete request that ends the machine and cleans up leaves nothing of the instance. -/
theorem deleteInstance {stop delete : Call}
    (hvm : ∀ row, w.rows id = some row →
      delete.survived (stop.survived (w.vms row.container)) = false) :
    Truthful (w.deleteInstance id stop delete true) := by
  rw [World.deleteInstance]
  cases hrow : w.rows id with
  | none => exact hw
  | some row =>
    have hdelete := Touches.executeDelete hrow stop delete true
    obtain ⟨row', hrow', hcontainer, -⟩ := hdelete.kept
    refine (hdelete.trans fun row'' hrow'' => .softDelete hrow'').truthful hrow hw ?_
    have hnone : ∀ key size, key.ownerType = .forInstance → key.ownerId = id →
        ¬ Standing ((w.executeDelete id row.container stop delete true).softDelete id).leases
          key size := by
      rintro ⟨ownerType, ownerId, leaseKind⟩ size hkey howner hstanding
      cases hkey
      cases howner
      obtain ⟨hstorage, hstanding⟩ := standing_releaseLease.mp hstanding
      obtain ⟨hruntime, -⟩ := standing_releaseLease.mp hstanding
      cases leaseKind with
      | runtime => exact hruntime rfl
      | storage => exact hstorage rfl
    refine ⟨fun found hfound hrunning => ?_,
      fun key size hkey howner hstanding => absurd hstanding (hnone key size hkey howner),
      fun found size _ hstanding => absurd hstanding (hnone _ size rfl rfl)⟩
    rw [rows_softDelete hrow'] at hfound
    cases hfound
    have hafter : (w.executeDelete id row.container stop delete true).vms row'.container = false := by
      rw [hcontainer, vms_executeDelete]
      exact hvm row hrow
    exact absurd (hafter.symm.trans hrunning) Bool.false_ne_true

/-- The create flow extends its lease. -/
theorem beginCreate (hrow : w.rows id = some row) : Truthful (w.beginCreate id) :=
  (hw.updateStatus hrow .provisioning).sameLeases fun _ _ => standing_extendLease

/-- The create flow of an instance whose lease stands, which leaves no machine running when it
fails. -/
theorem endCreate (hrow : w.rows id = some row) (hleased : Leased w id)
    {create cleanup : Call} (hvm : create = .ok ∨ cleanup.survived create.started = false) :
    Truthful (w.endCreate id row.container create cleanup) := by
  cases create with
  | ok =>
    have hstarted : Truthful (w.setVm row.container true) :=
      hw.setVm hrow fun _ => .inr hleased
    exact (hstarted.updateStatus hrow .active).sameLeases fun _ _ => standing_finalizeLease
  | failed running =>
    have hvm : cleanup.survived running = false := hvm.resolve_left nofun
    have hended : Truthful (w.setVm row.container (cleanup.survived running)) := by
      rw [hvm]
      exact hw.vmDies row.container
    refine hended.releaseInstanceLeases hrow ?_
    rw [vms_setVm_self, hvm]

end

end Truthful

end Theyos.Instances

import Theyos.Models.Instances.Truth

/-!
# New instances and the sweeps

A new instance comes with its leases. The reaper and the reconciliation at a start of the server
release leases of many instances at once.
-/

namespace Theyos.Instances

open Lease LeaseTable World

variable {id : String} {row : InstanceRow} {w w' : World}

/-- The instance leases that stand after an insertion. -/
theorem standing_insertInstance {now : ℕ} {req : Capacity.CreateRequest} {useWarmPool : Bool}
    {leases leases' : LeaseTable} {key : LeaseKey} {size : ℕ × ℕ}
    (h : Capacity.insertInstance now req id useWarmPool leases = some leases')
    (hkey : key.ownerType = .forInstance) :
    Standing leases' key size ↔ Standing leases key size ∨
      key = runtimeKey id ∧ size = (req.cpuCores, req.ramMb) ∨
      key = storageKey id ∧ size = (0, 0) := by
  have hinserted : ∀ {before}, insertWithLeases now Capacity.provisioningTtlSecs id req.cpuCores
      req.ramMb req.diskGb before = some leases' →
      (Standing leases' key size ↔ Standing before key size ∨
        key = runtimeKey id ∧ size = (req.cpuCores, req.ramMb) ∨
        key = storageKey id ∧ size = (0, 0)) := by
    intro before h
    obtain ⟨middle, hruntime, hstorage⟩ := Option.bind_eq_some_iff.mp h
    rw [standing_createLease hstorage, standing_createLease hruntime, or_assoc]
  cases useWarmPool with
  | false => exact hinserted h
  | true =>
    simp only [Capacity.insertInstance, if_true, insertWithWarmPoolLeases, Machine.eq_some_iff] at h
    obtain ⟨_, _, h⟩ := h
    rw [hinserted h, standing_releaseWhere_of_not]
    rintro lease - rfl
    have hne : lease.key ≠ warmPoolSlotKey req.clawType := by
      intro heq
      rw [heq] at hkey
      nomatch hkey
    simp [hne]

/-- A new instance, with leases of its own beside those of the others. -/
structure Inserted (id : String) (row : InstanceRow) (w w' : World) : Prop where
  fresh : w.rows id = none
  unused : w.containers row.container = none
  undeleted : row.deletedAt = none
  row_self : w'.rows id = some row
  row_other : ∀ other, other ≠ id → w'.rows other = w.rows other
  container_self : w'.containers row.container = some id
  container_other : ∀ container, container ≠ row.container →
    w'.containers container = w.containers container
  leases : ∀ key size, key.ownerType = .forInstance → (Standing w'.leases key size ↔
    Standing w.leases key size ∨ key = runtimeKey id ∧ size = row.size ∨
      key = storageKey id ∧ size = (0, 0))
  vms : w'.vms = w.vms

/-- What an insertion writes. -/
theorem inserted_of_insertInstance {name clawType : String} {cpu ram disk : ℕ} {useWarmPool : Bool}
    (h : w.insertInstance name clawType cpu ram disk useWarmPool = some w') :
    ∃ row, row.container = clawType ++ "-" ++ name ∧ Inserted ("inst-" ++ name) row w w' := by
  simp only [insertInstance, Machine.eq_some_iff, Option.isNone_iff_eq_none] at h
  obtain ⟨_, hrows, _, hcontainers, leases, hinsert, h⟩ := h
  cases h
  exact ⟨_, rfl, hrows, hcontainers, rfl, Function.update_self .., fun _ h => Function.update_of_ne h ..,
    Function.update_self .., fun _ h => Function.update_of_ne h ..,
    fun _ _ hkey => standing_insertInstance hinsert hkey, rfl⟩

namespace Inserted

variable (h : Inserted id row w w')

include h

/-- The new instance has a lease of its size, whether or not a machine runs under its name. -/
theorem trueOf_self (hw : Truthful w) : TrueOf w' id := by
  have hnone : ∀ key size, key.ownerType = .forInstance → key.ownerId = id →
      ¬ Standing w.leases key size := by
    intro key size hkey howner hstanding
    obtain ⟨found, hfound, -⟩ := (hw.all id).belongs key size hkey howner hstanding
    exact absurd (h.fresh.symm.trans hfound) nofun
  refine ⟨fun found hfound _ => ?_, fun key size hkey howner _ => ⟨row, h.row_self, h.undeleted⟩,
    fun found size hfound hstanding => ?_⟩
  · obtain rfl := Option.some.inj (h.row_self.symm.trans hfound)
    exact (h.leases _ _ rfl).mpr (.inr (.inl ⟨rfl, rfl⟩))
  · obtain rfl := Option.some.inj (h.row_self.symm.trans hfound)
    rcases (h.leases _ _ rfl).mp hstanding with hold | ⟨-, hsize⟩ | ⟨hkey, -⟩
    · exact absurd hold (hnone _ size rfl rfl)
    · exact hsize
    · nomatch hkey

theorem standing_other {key : LeaseKey} {size : ℕ × ℕ}
    (hkey : key.ownerType = .forInstance) (howner : key.ownerId ≠ id) :
    Standing w'.leases key size ↔ Standing w.leases key size := by
  rw [h.leases key size hkey]
  refine or_iff_left ?_
  rintro (⟨rfl, -⟩ | ⟨rfl, -⟩) <;> exact howner rfl

theorem trueOf_other {other : String} (hother : other ≠ id)
    (htrue : TrueOf w other) : TrueOf w' other := by
  refine ⟨fun found hfound hvm => ?_, fun key size hkey howner hstanding => ?_,
    fun found size hfound hstanding => ?_⟩
  · rw [h.row_other other hother] at hfound
    rw [h.vms] at hvm
    exact (h.standing_other rfl hother).mpr (htrue.held found hfound hvm)
  · rw [h.row_other other hother]
    refine htrue.belongs key size hkey howner ((h.standing_other hkey ?_).mp hstanding)
    rw [howner]
    exact hother
  · rw [h.row_other other hother] at hfound
    exact htrue.sized found size hfound ((h.standing_other rfl hother).mp hstanding)

theorem indexed (hw : Indexed w) : Indexed w' := by
  intro other found hfound
  by_cases hother : other = id
  · subst hother
    obtain rfl := Option.some.inj (h.row_self.symm.trans hfound)
    exact h.container_self
  · rw [h.row_other other hother] at hfound
    have hindex := hw other found hfound
    have hne : found.container ≠ row.container := by
      intro heq
      rw [heq, h.unused] at hindex
      nomatch hindex
    exact (h.container_other _ hne).trans hindex

theorem truthful (hw : Truthful w) : Truthful w' := by
  refine ⟨h.indexed hw.indexed, fun other => ?_⟩
  by_cases hother : other = id
  · rw [hother]
    exact h.trueOf_self hw
  · exact h.trueOf_other hother (hw.all other)

end Inserted

/-- The machine of an instance does not run. -/
def World.atRest (w : World) (id : String) : Bool :=
  (w.rows id).all fun row => !w.vms row.container

theorem World.atRest_iff : w.atRest id ↔ ∀ row, w.rows id = some row →
    w.vms row.container = false := by
  cases hrow : w.rows id with
  | none | some row => simp [atRest, hrow]

/-- What the reaper does to one expired lease whose instance is at rest. -/
theorem Truthful.reapLease (hw : Truthful w) {lease : ResourceLease}
    (hrest : lease.key.ownerType = .forInstance → w.atRest lease.key.ownerId) :
    Truthful (w.reapLease lease) := by
  rw [World.reapLease]
  split
  · exact hw
  · rename_i howner
    have hrest := atRest_iff.mp (hrest (not_not.mp howner))
    cases hrow : w.rows lease.key.ownerId with
    | none => exact hw.releaseOrphanLeases hrow
    | some row =>
      have hvm := hrest row hrow
      dsimp only
      split
      · exact (hw.updateStatus hrow .failed).releaseRuntimeLease
          (rows_updateStatus hrow .failed) hvm
      · exact hw.releaseRuntimeLease hrow hvm

theorem World.atRest_reapLease (w : World) (lease : ResourceLease) (id : String) :
    (w.reapLease lease).atRest id = w.atRest id := by
  rw [reapLease]
  split
  · rfl
  · cases hrow : w.rows lease.key.ownerId with
    | none => rfl
    | some row =>
      dsimp only
      split
      · by_cases hid : id = lease.key.ownerId
        · subst hid
          simp [atRest, releaseRuntimeLease, updateStatus, updateRow, hrow]
        · simp [atRest, releaseRuntimeLease, updateStatus, updateRow, hid]
      · rfl

/-- Reaping a lease leaves those of the other instances. -/
theorem Leased.reapLease {lease : ResourceLease} (h : Leased w id)
    (howner : lease.key.ownerType = .forInstance → lease.key.ownerId ≠ id) :
    Leased (w.reapLease lease) id := by
  obtain ⟨size, hstanding⟩ := h
  rw [World.reapLease]
  split
  · exact ⟨size, hstanding⟩
  · rename_i hinstance
    have hne := howner (not_not.mp hinstance)
    cases hrow : w.rows lease.key.ownerId with
    | none =>
      refine ⟨size, standing_releaseAllLeases.mpr ⟨?_, hstanding⟩⟩
      rintro ⟨-, heq⟩
      exact hne heq.symm
    | some row =>
      have hkey : runtimeKey id ≠ runtimeKey lease.key.ownerId := by
        intro heq
        exact hne (congrArg LeaseKey.ownerId heq).symm
      dsimp only
      split <;> exact ⟨size, standing_releaseLease.mpr ⟨hkey, hstanding⟩⟩

/-- A pass of the reaper over leases whose instances are at rest. -/
theorem Truthful.reap (leases : List ResourceLease) (hw : Truthful w)
    (hrest : ∀ lease ∈ leases, lease.key.ownerType = .forInstance → w.atRest lease.key.ownerId) :
    Truthful (leases.foldl World.reapLease w) := by
  induction leases generalizing w with
  | nil => exact hw
  | cons lease leases ih =>
    refine ih (hw.reapLease (hrest lease List.mem_cons_self)) fun other hmem howner => ?_
    rw [atRest_reapLease]
    exact hrest other (List.mem_cons_of_mem _ hmem) howner

theorem Leased.reap (leases : List ResourceLease) (h : Leased w id)
    (howner : ∀ lease ∈ leases, lease.key.ownerType = .forInstance → lease.key.ownerId ≠ id) :
    Leased (leases.foldl World.reapLease w) id :=
  List.foldlRecOn (motive := (Leased · id)) leases _ h fun _ h lease hmem =>
    h.reapLease (howner lease hmem)

section

variable {cleanedContainers : List String} {envExists : String → Bool}

/-- The instance leases that stand after the reconciliation. -/
theorem standing_reconcileAfterSweep {key : LeaseKey} {size : ℕ × ℕ} :
    Standing (w.reconcileAfterSweep cleanedContainers envExists).leases key size ↔
      ¬ (key.ownerType = .forInstance ∧ key.leaseKind = .runtime ∧
        w.foundDead cleanedContainers envExists key.ownerId) ∧ Standing w.leases key size := by
  refine (standing_releaseWhere fun key => key.ownerType = .forInstance &&
    key.leaseKind = .runtime && w.foundDead cleanedContainers envExists key.ownerId).trans ?_
  rw [← Bool.not_eq_true]
  simp only [Bool.and_eq_true, decide_eq_true_eq, and_assoc]

/-- The rows after the reconciliation differ in their status alone. -/
theorem rows_reconcileAfterSweep {found : InstanceRow}
    (h : (w.reconcileAfterSweep cleanedContainers envExists).rows id = some found) :
    ∃ row status, w.rows id = some row ∧ found = { row with status } := by
  dsimp only [reconcileAfterSweep] at h
  split at h
  · obtain ⟨row, hrow, rfl⟩ := Option.map_eq_some_iff.mp h
    exact ⟨row, _, hrow, rfl⟩
  · exact ⟨found, _, h, rfl⟩

theorem exists_row_reconcileAfterSweep (hrow : w.rows id = some row) :
    ∃ found, (w.reconcileAfterSweep cleanedContainers envExists).rows id = some found ∧
      found.deletedAt = row.deletedAt := by
  dsimp only [reconcileAfterSweep]
  split
  · exact ⟨{ row with status := .stopped }, by rw [hrow]; rfl, rfl⟩
  · exact ⟨row, hrow, rfl⟩

/-- A reconciliation in which the instances that are found dead are at rest. -/
theorem Truthful.reconcileAfterSweep (hw : Truthful w)
    (hrest : ∀ id, Leased w id → w.foundDead cleanedContainers envExists id → w.atRest id) :
    Truthful (w.reconcileAfterSweep cleanedContainers envExists) := by
  refine ⟨fun id found hfound => ?_, fun id => ?_⟩
  · obtain ⟨row, status, hrow, rfl⟩ := rows_reconcileAfterSweep hfound
    exact hw.indexed id row hrow
  · have h := hw.all id
    refine ⟨fun found hfound hvm => ?_, fun key size hkey howner hstanding => ?_,
      fun found size hfound hstanding => ?_⟩
    · obtain ⟨row, status, hrow, rfl⟩ := rows_reconcileAfterSweep hfound
      have hstanding := h.held row hrow hvm
      refine standing_reconcileAfterSweep.mpr ⟨?_, hstanding⟩
      rintro ⟨-, -, hdead⟩
      have hvm' := atRest_iff.mp (hrest id ⟨_, hstanding⟩ hdead) row hrow
      exact absurd (hvm'.symm.trans hvm) Bool.false_ne_true
    · obtain ⟨row, hrow, hdeleted⟩ :=
        h.belongs key size hkey howner (standing_reconcileAfterSweep.mp hstanding).2
      obtain ⟨found, hfound, hsame⟩ := exists_row_reconcileAfterSweep hrow
      exact ⟨found, hfound, hsame.trans hdeleted⟩
    · obtain ⟨row, status, hrow, rfl⟩ := rows_reconcileAfterSweep hfound
      exact h.sized row size hrow (standing_reconcileAfterSweep.mp hstanding).2

theorem Leased.reconcileAfterSweep (h : Leased w id)
    (hdead : ¬ w.foundDead cleanedContainers envExists id) :
    Leased (w.reconcileAfterSweep cleanedContainers envExists) id := by
  obtain ⟨size, hstanding⟩ := h
  exact ⟨size, standing_reconcileAfterSweep.mpr ⟨fun hkey => hdead hkey.2.2, hstanding⟩⟩

end

end Theyos.Instances

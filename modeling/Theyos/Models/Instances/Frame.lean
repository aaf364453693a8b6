import Theyos.Models.Instances.Upkeep

/-!
# What a flow touches

A flow changes the row, the leases and the machine of its own instance and nothing of any
other. What is to be shown of it is therefore what it does to that one instance.
-/

namespace Theyos.Instances

open Lease LeaseTable

/-- What holds of an instance: when its machine runs, a runtime lease of its size stands; the
leases that stand belong to a row that is not deleted and have its size. -/
structure TrueOf (w : World) (id : String) : Prop where
  held : ∀ row, w.rows id = some row → w.vms row.container →
    Standing w.leases (runtimeKey id) row.size
  belongs : ∀ key size, key.ownerType = .forInstance → key.ownerId = id →
    Standing w.leases key size → ∃ row, w.rows id = some row ∧ row.deletedAt = none
  sized : ∀ row size, w.rows id = some row → Standing w.leases (runtimeKey id) size →
    size = row.size

/-- Every row is found by its container. -/
def Indexed (w : World) : Prop :=
  ∀ id row, w.rows id = some row → w.containers row.container = some id

/-- The containers are indexed, and what is to hold of an instance holds of all. -/
structure Truthful (w : World) : Prop where
  indexed : Indexed w
  all : ∀ id, TrueOf w id

/-- A change of one instance that has a row. -/
structure Touches (id : String) (row : InstanceRow) (w w' : World) : Prop where
  rows : ∀ other, other ≠ id → w'.rows other = w.rows other
  kept : ∃ row', w'.rows id = some row' ∧ row'.container = row.container ∧ row'.size = row.size
  containers : w'.containers = w.containers
  vms : ∀ container, container ≠ row.container → w'.vms container = w.vms container
  leases : ∀ key size, (key.ownerType = .forInstance → key.ownerId ≠ id) →
    (Standing w'.leases key size ↔ Standing w.leases key size)

variable {id : String} {row : InstanceRow} {w w' w'' : World}

theorem Indexed.container_ne (h : Indexed w) {other : String} {found : InstanceRow}
    (hrow : w.rows id = some row) (hfound : w.rows other = some found) (hother : other ≠ id) :
    found.container ≠ row.container := by
  intro heq
  have hindex := h other found hfound
  rw [heq, h id row hrow] at hindex
  exact hother (Option.some.inj hindex).symm

namespace Touches

protected theorem trans (h : Touches id row w w')
    (h' : ∀ row', w'.rows id = some row' → Touches id row' w' w'') : Touches id row w w'' := by
  obtain ⟨row', hrow', hcontainer, hsize⟩ := h.kept
  obtain ⟨hrows, ⟨row'', hrow'', hcontainer', hsize'⟩, hcontainers, hvms, hleases⟩ :=
    h' row' hrow'
  refine ⟨fun other hne => (hrows other hne).trans (h.rows other hne),
    ⟨row'', hrow'', hcontainer'.trans hcontainer, hsize'.trans hsize⟩,
    hcontainers.trans h.containers, fun container hne => ?_,
    fun key size hkey => (hleases key size hkey).trans (h.leases key size hkey)⟩
  exact (hvms container (hcontainer ▸ hne)).trans (h.vms container hne)

section

variable (hrow : w.rows id = some row)

include hrow

theorem setVm (running : Bool) : Touches id row w (w.setVm row.container running) where
  rows _ _ := rfl
  kept := ⟨row, hrow, rfl, rfl⟩
  containers := rfl
  vms _ hne := Function.update_of_ne hne ..
  leases _ _ _ := Iff.rfl

theorem updateRow {f : InstanceRow → InstanceRow}
    (hf : (f row).container = row.container ∧ (f row).size = row.size) :
    Touches id row w (w.updateRow id f) where
  rows _ hne := Function.update_of_ne hne ..
  kept := ⟨f row, by simp [World.updateRow, hrow], hf.1, hf.2⟩
  containers := rfl
  vms _ _ := rfl
  leases _ _ _ := Iff.rfl

theorem updateStatus (status : InstanceStatus) : Touches id row w (w.updateStatus id status) :=
  updateRow hrow ⟨rfl, rfl⟩

theorem softDelete : Touches id row w (w.softDelete id) :=
  updateRow hrow ⟨rfl, rfl⟩

/-- The leases of the instance are changed. -/
theorem withLeases {leases : LeaseTable}
    (hleases : ∀ key size, (key.ownerType = .forInstance → key.ownerId ≠ id) →
      (Standing leases key size ↔ Standing w.leases key size)) :
    Touches id row w { w with leases } :=
  ⟨fun _ _ => rfl, ⟨row, hrow, rfl, rfl⟩, rfl, fun _ _ => rfl, hleases⟩

theorem releaseRuntimeLease : Touches id row w (w.releaseRuntimeLease id) := by
  refine withLeases hrow fun key size hkey => standing_releaseLease.trans (and_iff_right ?_)
  rintro rfl
  exact hkey rfl rfl

theorem releaseStorageLease : Touches id row w (w.releaseStorageLease id) := by
  refine withLeases hrow fun key size hkey => standing_releaseLease.trans (and_iff_right ?_)
  rintro rfl
  exact hkey rfl rfl

theorem releaseInstanceLeases : Touches id row w (w.releaseInstanceLeases id) := by
  refine withLeases hrow fun key size hkey => standing_releaseAllLeases.trans (and_iff_right ?_)
  exact fun howner => hkey howner.1 howner.2

theorem createLease {cpu ram : ℕ} {leases : LeaseTable}
    (hcreate : createLease w.now (Capacity.restartLease id cpu ram) w.leases = some leases) :
    Touches id row w { w with leases } := by
  refine withLeases hrow fun key size hkey =>
    (standing_createLease hcreate).trans (or_iff_left ?_)
  rintro ⟨rfl, -⟩
  exact hkey rfl rfl

end

variable (h : Touches id row w w')

include h

theorem indexed (hrow : w.rows id = some row) (hw : Indexed w) : Indexed w' := by
  intro other found hfound
  rw [h.containers]
  by_cases hother : other = id
  · subst hother
    obtain ⟨row', hrow', hcontainer, -⟩ := h.kept
    obtain rfl := Option.some.inj (hrow'.symm.trans hfound)
    rw [hcontainer]
    exact hw other row hrow
  · rw [h.rows other hother] at hfound
    exact hw other found hfound

/-- What holds of the other instances goes on holding. -/
theorem truthful (hrow : w.rows id = some row) (hw : Truthful w)
    (htrue : TrueOf w' id) : Truthful w' := by
  refine ⟨h.indexed hrow hw.indexed, fun other => ?_⟩
  by_cases hother : other = id
  · rw [hother]
    exact htrue
  · have hrows := h.rows other hother
    obtain ⟨hheld, hbelongs, hsized⟩ := hw.all other
    refine ⟨fun found hfound hvm => ?_, fun key size hkey howner hstanding => ?_,
      fun found size hfound hstanding => ?_⟩
    · rw [hrows] at hfound
      rw [h.vms _ (hw.indexed.container_ne hrow hfound hother)] at hvm
      exact (h.leases _ _ fun _ => hother).mpr (hheld found hfound hvm)
    · rw [hrows]
      refine hbelongs key size hkey howner ((h.leases _ _ fun _ => ?_).mp hstanding)
      rw [howner]
      exact hother
    · rw [hrows] at hfound
      exact hsized found size hfound ((h.leases _ _ fun _ => hother).mp hstanding)

/-- A lease of another instance stands or not, as before. -/
theorem standing_other {other : String} (hother : other ≠ id) {size : ℕ × ℕ} :
    Standing w'.leases (runtimeKey other) size ↔ Standing w.leases (runtimeKey other) size :=
  h.leases _ _ fun _ => hother

end Touches

end Theyos.Instances

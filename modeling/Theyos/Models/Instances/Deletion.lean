import Theyos.Models.Instances.Desk

/-!
# When a deletion is final

A job that was queued, claimed or not yet marked when its instance was deleted runs on: it
creates the machine again and marks the deleted row as active. A deletion is final when nothing
of the creation is left to be done and the runner has ended the machine.
-/

namespace Theyos.Instances

open Lease Jobs Machine World

variable {w w' : World} {id other : String} {row : InstanceRow}

/-- The machine of an instance does not run and its row does not show it as active. -/
def Gone (w : World) (id : String) : Prop :=
  ∃ row, w.rows id = some row ∧ w.vms row.container = false ∧ row.status ≠ .active

/-- A flow of another instance leaves what is gone. -/
theorem Gone.touches (h : Gone w other) (htouches : Touches id row w w')
    (hrow : w.rows id = some row) (hw : Indexed w) (hother : other ≠ id) : Gone w' other := by
  obtain ⟨found, hfound, hvm, hstatus⟩ := h
  refine ⟨found, (htouches.rows other hother).trans hfound, ?_, hstatus⟩
  rw [htouches.vms _ (hw.container_ne hrow hfound hother)]
  exact hvm

/-- The delete flow leaves the row stopped. -/
theorem status_executeDelete {stop delete : Call} {cleanupFs : Bool} {container : String}
    {found : InstanceRow} (hrow : w.rows id = some row)
    (h : (w.executeDelete id container stop delete cleanupFs).rows id = some found) :
    found.status ≠ .active := by
  cases cleanupFs <;>
  · simp only [executeDelete, softDelete, updateRow, releaseStorageLease,
      releaseRuntimeLease, setVm, hrow, Function.update_self, Option.map_some,
      if_true, if_false, Bool.false_eq_true] at h
    cases h
    simp

/-- What a row records of a job or of a request: the instance and its container. -/
def Recorded (w : World) (id container : String) : Prop :=
  ∃ row, w.rows id = some row ∧ row.container = container

theorem Recorded.touches {container : String} (h : Recorded w other container)
    (htouches : Touches id row w w') (hrow : w.rows id = some row) : Recorded w' other container := by
  obtain ⟨found, hfound, hcontainer⟩ := h
  by_cases hother : other = id
  · subst hother
    obtain rfl := Option.some.inj (hrow.symm.trans hfound)
    obtain ⟨row', hrow', hsame, -⟩ := htouches.kept
    exact ⟨row', hrow', hsame.trans hcontainer⟩
  · exact ⟨found, (htouches.rows other hother).trans hfound, hcontainer⟩

namespace Desk

/-- The delete requests whose flow has run. -/
def Removed (s : Desk) (id : String) : Prop := id ∈ s.deleting ∨ id ∈ s.deleted

/-- The job is in the table or in the hands of the worker. -/
def Carries (s : Desk) (job : Job) : Prop := job ∈ s.jobs ∨ s.worker.job? = some job

/-- The job may still be worked on. -/
def Pending (s : Desk) (job : Job) : Prop := job ∈ s.jobs ∧ job.live ∨ s.worker.job? = some job

theorem busy_iff {s : Desk} : s.busy id ↔
    (∃ request ∈ s.requests, request.id = id) ∨ ∃ job, s.Pending job ∧ job.instanceId = id := by
  simp only [busy, Bool.or_eq_true, List.any_eq_true, Bool.and_eq_true, decide_eq_true_eq,
    Option.any_eq_true, Pending]
  grind

theorem Pending.carries {s : Desk} {job : Job} (h : s.Pending job) : s.Carries job :=
  h.imp_left And.left

end Desk

/-- The rows of the jobs and requests are there, no job is queued for a request that is still to
queue its own, and what is removed is gone, with nothing of its creation left to be done. -/
structure Orderly (s : Desk) : Prop where
  indexed : Indexed s.world
  ids : (s.jobs.map (·.id)).Nodup
  carried : ∀ job, s.Carries job → Recorded s.world job.instanceId job.payload
  requested : ∀ request ∈ s.requests, Recorded s.world request.id request.container
  apart : (s.requests.map (·.id)).Nodup
  unqueued : ∀ request ∈ s.requests, ∀ job, s.Carries job → job.instanceId ≠ request.id
  gone : ∀ id, s.Removed id → Gone s.world id
  settled : ∀ id, s.Removed id → ¬ s.busy id

/-- A step of a flow or of the worker on an instance whose deletion has not run. -/
inductive Works (s : Desk) (world : World) : Prop where
  | rest (h : world = s.world)
  | flow (id : String) (row : InstanceRow) (hrow : s.world.rows id = some row)
      (htouches : Touches id row s.world world) (hbusy : s.busy id)

variable {s t : Desk}

/-- What the worker does with the jobs that are there. -/
theorem Orderly.works (h : Orderly s) (hrequests : t.requests = s.requests)
    (hremoved : ∀ id, t.Removed id ↔ s.Removed id) (hworks : Works s t.world)
    (hids : (t.jobs.map (·.id)).Nodup)
    (hcarries : ∀ job, t.Carries job → ∃ job', s.Carries job' ∧
      job'.instanceId = job.instanceId ∧ job'.payload = job.payload)
    (hpending : ∀ job, t.Pending job → ∃ job', s.Pending job' ∧
      job'.instanceId = job.instanceId) : Orderly t := by
  obtain ⟨hindexed, hrecorded, hgone⟩ : Indexed t.world ∧
      (∀ {id container}, Recorded s.world id container → Recorded t.world id container) ∧
        ∀ id, s.Removed id → Gone t.world id := by
    rcases hworks with hworld | ⟨owner, row, hrow, htouches, howner⟩
    · rw [hworld]
      exact ⟨h.indexed, id, h.gone⟩
    · refine ⟨htouches.indexed hrow h.indexed, fun hrecord => hrecord.touches htouches hrow,
        fun id hid => (h.gone id hid).touches htouches hrow h.indexed ?_⟩
      rintro rfl
      exact h.settled id hid howner
  have hbusy : ∀ id, t.busy id → s.busy id := by
    intro id hbusy
    rw [Desk.busy_iff] at hbusy ⊢
    rw [hrequests] at hbusy
    rcases hbusy with hrequest | ⟨job, hjob, hid⟩
    · exact .inl hrequest
    · obtain ⟨job', hjob', hsame⟩ := hpending job hjob
      exact .inr ⟨job', hjob', hsame.trans hid⟩
  refine ⟨hindexed, hids, fun job hjob => ?_, ?_, ?_, ?_,
    fun id hid => hgone id ((hremoved id).mp hid), fun id hid hbusy' => ?_⟩
  · obtain ⟨job', hjob', hid, hpayload⟩ := hcarries job hjob
    rw [← hid, ← hpayload]
    exact hrecorded (h.carried job' hjob')
  · rw [hrequests]
    exact fun request hmem => hrecorded (h.requested request hmem)
  · rw [hrequests]
    exact h.apart
  · rw [hrequests]
    intro request hmem job hjob
    obtain ⟨job', hjob', hid, -⟩ := hcarries job hjob
    rw [← hid]
    exact h.unqueued request hmem job' hjob'
  · exact h.settled id ((hremoved id).mp hid) (hbusy id hbusy')

/-- Of requests with distinct instances, one is the only one of its instance. -/
theorem id_ne_of_mem_erase {requests : List Request} (h : (requests.map (·.id)).Nodup)
    {request other : Request} (hmem : request ∈ requests) (hother : other ∈ requests.erase request) :
    other.id ≠ request.id := by
  have hperm := (List.perm_cons_erase hmem).map (·.id)
  rw [hperm.nodup_iff, List.map_cons, List.nodup_cons] at h
  rintro heq
  exact h.1 (heq ▸ List.mem_map_of_mem hother)

/-- A new instance has no row, so that nothing has to do with it yet. -/
theorem Orderly.insert (h : Orderly s) (request : Request) {world : World} {row : InstanceRow}
    (hinserted : Inserted request.id row s.world world) (hrow : row.container = request.container) :
    Orderly { s with world, requests := request :: s.requests } := by
  have hnew : ∀ {id container}, Recorded s.world id container → id ≠ request.id := by
    rintro id container ⟨found, hfound, -⟩ rfl
    exact absurd (hinserted.fresh.symm.trans hfound) nofun
  have hrecorded : ∀ {id container}, Recorded s.world id container →
      Recorded world id container := by
    intro id container hrecord
    have hne := hnew hrecord
    obtain ⟨found, hfound, hcontainer⟩ := hrecord
    exact ⟨found, (hinserted.row_other id hne).trans hfound, hcontainer⟩
  have hremoved : ∀ id, s.Removed id → id ≠ request.id := by
    intro id hid
    obtain ⟨found, hfound, -⟩ := h.gone id hid
    exact hnew ⟨found, hfound, rfl⟩
  refine ⟨hinserted.indexed h.indexed, h.ids, fun job hjob => hrecorded (h.carried job hjob), ?_,
    ?_, ?_, fun id hid => ?_, fun id hid hbusy => ?_⟩
  · intro other hmem
    rcases List.mem_cons.mp hmem with rfl | hmem
    · exact ⟨row, hinserted.row_self, hrow⟩
    · exact hrecorded (h.requested other hmem)
  · rw [List.map_cons, List.nodup_cons]
    refine ⟨fun hmem => ?_, h.apart⟩
    obtain ⟨other, hmem, heq⟩ := List.mem_map.mp hmem
    exact hnew (h.requested other hmem) heq
  · intro other hmem job hjob
    rcases List.mem_cons.mp hmem with rfl | hmem
    · exact hnew (h.carried job hjob)
    · exact h.unqueued other hmem job hjob
  · obtain ⟨found, hfound, hvm, hstatus⟩ := h.gone id hid
    refine ⟨found, (hinserted.row_other id (hremoved id hid)).trans hfound, ?_, hstatus⟩
    rw [hinserted.vms]
    exact hvm
  · rcases Desk.busy_iff.mp hbusy with ⟨other, hmem, heq⟩ | hjob
    · rcases List.mem_cons.mp hmem with rfl | hmem
      · exact hremoved id hid heq.symm
      · exact h.settled id hid (Desk.busy_iff.mpr (.inl ⟨other, hmem, heq⟩))
    · exact h.settled id hid (Desk.busy_iff.mpr (.inr hjob))

variable {request : Request}

theorem Orderly.ne_of_removed (h : Orderly s) (hmem : request ∈ s.requests)
    (hid : s.Removed id) : id ≠ request.id := by
  rintro rfl
  exact h.settled _ hid (Desk.busy_iff.mpr (.inl ⟨request, hmem, rfl⟩))

/-- A request queues its job. -/
theorem Orderly.queue (h : Orderly s) (hmem : request ∈ s.requests)
    {jobs : Table} {jobId : String} {createdAt : ℕ}
    (hcreate : s.jobs.create (.new jobId .createInstance request.id request.container createdAt) =
      .ok jobs) :
    Orderly { s with
      world := s.world.updateStatus request.id .provisioning
      jobs
      requests := s.requests.erase request } := by
  obtain ⟨hfresh, rfl⟩ := Table.create_eq_ok.mp hcreate
  obtain ⟨row, hrow, hcontainer⟩ := h.requested request hmem
  have htouches := Touches.updateStatus hrow .provisioning
  refine ⟨htouches.indexed hrow h.indexed, ?_, fun job hjob => ?_, fun other hother => ?_,
    h.apart.sublist (List.erase_sublist.map _), fun other hother job hjob => ?_, fun id hid => ?_,
    fun id hid hbusy => ?_⟩
  · rw [List.map_cons, List.nodup_cons]
    refine ⟨fun hmem => ?_, h.ids⟩
    obtain ⟨job, hjob, heq⟩ := List.mem_map.mp hmem
    exact hfresh job hjob heq
  · rcases hjob with hjob | hjob
    · rcases List.mem_cons.mp hjob with rfl | hjob
      · exact (h.requested request hmem).touches htouches hrow
      · exact (h.carried job (.inl hjob)).touches htouches hrow
    · exact (h.carried job (.inr hjob)).touches htouches hrow
  · exact (h.requested other (List.mem_of_mem_erase hother)).touches htouches hrow
  · have hold := h.unqueued other (List.mem_of_mem_erase hother)
    rcases hjob with hjob | hjob
    · rcases List.mem_cons.mp hjob with rfl | hjob
      · exact (id_ne_of_mem_erase h.apart hmem hother).symm
      · exact hold job (.inl hjob)
    · exact hold job (.inr hjob)
  · exact (h.gone id hid).touches htouches hrow h.indexed (h.ne_of_removed hmem hid)
  · refine h.settled id hid (Desk.busy_iff.mpr ?_)
    rcases Desk.busy_iff.mp hbusy with ⟨other, hother, heq⟩ | ⟨job, ⟨hjob, hlive⟩ | hjob, heq⟩
    · exact .inl ⟨other, List.mem_of_mem_erase hother, heq⟩
    · rcases List.mem_cons.mp hjob with rfl | hjob
      · exact .inl ⟨request, hmem, heq⟩
      · exact .inr ⟨job, .inl ⟨hjob, hlive⟩, heq⟩
    · exact .inr ⟨job, .inr hjob, heq⟩

theorem World.vms_rollBack (w : World) (id : String) (restore : Bool) :
    (w.rollBack id restore).vms = w.vms := by
  rw [rollBack]
  cases w.rows id <;> rfl

theorem World.rows_rollBack (w : World) (restore : Bool) (hother : other ≠ id) :
    (w.rollBack id restore).rows other = w.rows other := by
  rw [rollBack]
  cases w.rows id with
  | none => rfl
  | some row => exact Function.update_of_ne hother ..

theorem Indexed.rollBack (h : Indexed w) (hrow : w.rows id = some row) (restore : Bool) :
    Indexed (w.rollBack id restore) := by
  intro other found hfound
  by_cases hother : other = id
  · subst hother
    simp [rollBack, hrow] at hfound
  · rw [rows_rollBack w restore hother] at hfound
    have hne := h.container_ne hrow hfound hother
    simp only [World.rollBack, hrow]
    exact (Function.update_of_ne hne ..).trans (h other found hfound)

/-- A request undoes its insertion. -/
theorem Orderly.rollBack (h : Orderly s) (hmem : request ∈ s.requests)
    (restore : Bool) :
    Orderly { s with
      world := s.world.rollBack request.id restore
      requests := s.requests.erase request } := by
  obtain ⟨row, hrow, -⟩ := h.requested request hmem
  have hrecorded : ∀ {id container}, id ≠ request.id → Recorded s.world id container →
      Recorded (s.world.rollBack request.id restore) id container := by
    rintro id container hne ⟨found, hfound, hcontainer⟩
    exact ⟨found, (rows_rollBack _ restore hne).trans hfound, hcontainer⟩
  refine ⟨h.indexed.rollBack hrow restore, h.ids,
    fun job hjob => hrecorded (h.unqueued request hmem job hjob) (h.carried job hjob),
    fun other hother => hrecorded (id_ne_of_mem_erase h.apart hmem hother)
      (h.requested other (List.mem_of_mem_erase hother)),
    h.apart.sublist (List.erase_sublist.map _),
    fun other hother => h.unqueued other (List.mem_of_mem_erase hother), fun id hid => ?_,
    fun id hid hbusy => h.settled id hid (Desk.busy_iff.mpr ?_)⟩
  · obtain ⟨found, hfound, hvm, hstatus⟩ := h.gone id hid
    refine ⟨found, ?_, ?_, hstatus⟩
    · exact (rows_rollBack _ restore (h.ne_of_removed hmem hid)).trans hfound
    · rw [vms_rollBack]
      exact hvm
  · rcases Desk.busy_iff.mp hbusy with ⟨other, hother, heq⟩ | hjob
    · exact .inl ⟨other, List.mem_of_mem_erase hother, heq⟩
    · exact .inr hjob

/-- A delete flow that ends the machine of an instance with whose creation nothing has to do any
more. -/
theorem Orderly.delete (h : Orderly s) (hrow : s.world.rows id = some row) (hbusy : ¬ s.busy id)
    {stop delete : Call} (cleanupFs : Bool)
    (hvm : delete.survived (stop.survived (s.world.vms row.container)) = false) :
    Orderly { s with
      world := s.world.executeDelete id row.container stop delete cleanupFs
      deleting := id :: s.deleting } := by
  have htouches := Touches.executeDelete hrow stop delete cleanupFs
  refine ⟨htouches.indexed hrow h.indexed, h.ids,
    fun job hjob => (h.carried job hjob).touches htouches hrow,
    fun other hother => (h.requested other hother).touches htouches hrow, h.apart, h.unqueued,
    fun other hother => ?_, fun other hother => ?_⟩
  · by_cases heq : other = id
    · subst heq
      obtain ⟨row', hrow', hcontainer, -⟩ := htouches.kept
      refine ⟨row', hrow', ?_, status_executeDelete hrow hrow'⟩
      rw [hcontainer, vms_executeDelete]
      exact hvm
    · have hbefore : s.Removed other := hother.imp_left fun hmem =>
        (List.mem_cons.mp hmem).resolve_left heq
      exact (h.gone other hbefore).touches htouches hrow h.indexed heq
  · by_cases heq : other = id
    · rw [heq]
      exact hbusy
    · exact h.settled other (hother.imp_left fun hmem => (List.mem_cons.mp hmem).resolve_left heq)

/-- The delete request marks the row once more and returns. -/
theorem Orderly.deleteReturns (h : Orderly s) (hmem : id ∈ s.deleting) :
    Orderly { s with
      world := s.world.softDelete id
      deleting := s.deleting.erase id
      deleted := id :: s.deleted } := by
  obtain ⟨row, hrow, hvm, -⟩ := h.gone id (.inl hmem)
  have htouches := Touches.softDelete hrow
  have hremoved : ∀ other, (other ∈ s.deleting.erase id ∨ other ∈ id :: s.deleted) →
      s.Removed other := by
    rintro other (hother | hother)
    · exact .inl (List.mem_of_mem_erase hother)
    · rcases List.mem_cons.mp hother with rfl | hother
      · exact .inl hmem
      · exact .inr hother
  refine ⟨htouches.indexed hrow h.indexed, h.ids,
    fun job hjob => (h.carried job hjob).touches htouches hrow,
    fun other hother => (h.requested other hother).touches htouches hrow, h.apart, h.unqueued,
    fun other hother => ?_, fun other hother => h.settled other (hremoved other hother)⟩
  by_cases heq : other = id
  · subst heq
    exact ⟨_, rows_softDelete hrow, hvm, nofun⟩
  · exact (h.gone other (hremoved other hother)).touches htouches hrow h.indexed heq

end Theyos.Instances

import Theyos.Models.Instances.Sweeps

/-!
# When the runtime leases tell the truth

A rebuild starts the machine of a stopped instance without a lease, a delete releases the lease of
a machine that neither of its calls ended and keeps the storage lease of a deleted row when the
clean-up fails, and flows and sweeps release the lease of an instance whose create job is still to
come.
-/

namespace Theyos.Instances

open Machine Lease LeaseTable Site

/-- A runtime lease of the instance is not released. -/
def World.leased (w : World) (id : String) : Bool :=
  w.leases.any fun lease => lease.key = runtimeKey id && lease.unreleased

/-- The instance has a row that is not deleted, or none. -/
def World.undeleted (w : World) (id : String) : Bool :=
  (w.rows id).all fun row => row.deletedAt.isNone

/-- No machine of the instance runs and no create job of it is to come. -/
def Site.idle (s : Site) (id : String) : Bool := !s.awaits id && s.world.atRest id

/-- The circumstances under which an action keeps the leases true. -/
def Careful (s : Site) : Action → Prop
  | .endCreate create cleanup => create = .ok ∨ cleanup.survived create.started = false
  | .stop id _ => s.awaits id = false
  | .restart id _ call => s.world.undeleted id ∧
    (call = .failed true → hasActiveLease s.world.now (runtimeKey id) s.world.leases)
  | .rebuild id _ => s.world.leased id
  | .delete id stop delete cleanupFs => s.awaits id = false ∧ cleanupFs = true ∧
    (s.world.rows id).all fun row => !delete.survived (stop.survived (s.world.vms row.container))
  | .reap => ∀ lease ∈ expiredRuntimeLeases s.world.now s.world.leases,
    lease.key.ownerType = .forInstance → s.idle lease.key.ownerId
  | .startup cleanedContainers envExists => ∀ lease ∈ s.world.leases, lease.unreleased →
    lease.key.ownerType = .forInstance →
    s.world.foundDead cleanedContainers envExists lease.key.ownerId → s.idle lease.key.ownerId
  | .autoRestart id call => s.world.undeleted id ∧ (call = .failed true → s.world.leased id)
  | _ => True

instance (s : Site) (action : Action) : Decidable (Careful s action) := by
  cases action <;> unfold Careful <;> infer_instance

/-- The leases are true, and the instances whose create job is to come have theirs. -/
structure Sound (s : Site) : Prop where
  truthful : Truthful s.world
  leased : ∀ id, s.awaits id → Leased s.world id
  once : s.pending.Nodup
  apart : ∀ id, s.creating = some id → id ∉ s.pending

variable {s t : Site} {w : World} {id other : String}

theorem World.leased_iff : w.leased id ↔ Leased w id := by
  simp only [World.leased, Leased, Standing, List.any_eq_true, Bool.and_eq_true, decide_eq_true_eq]
  grind

theorem World.undeleted_iff : w.undeleted id ↔ ∀ row, w.rows id = some row →
    row.deletedAt = none := by
  cases hrow : w.rows id with
  | none | some row => simp [World.undeleted, hrow]

theorem Site.awaits_iff : s.awaits id ↔ id ∈ s.pending ∨ s.creating = some id := by
  rw [awaits, decide_eq_true_eq]

theorem Site.idle_iff : s.idle id ↔ ¬ s.awaits id ∧ s.world.atRest id := by
  simp [idle]

namespace Leased

theorem of_releaseLease {now : ℕ} {leases : LeaseTable} (h : Leased w other) (hother : other ≠ id)
    (hleases : leases = releaseLease now (runtimeKey id) w.leases) :
    Leased { w with leases } other := by
  obtain ⟨size, hstanding⟩ := h
  refine ⟨size, ?_⟩
  rw [hleases]
  refine standing_releaseLease.mpr ⟨fun heq => hother ?_, hstanding⟩
  exact congrArg LeaseKey.ownerId heq

theorem congr {w' : World} (h : Leased w id) (hleases : w'.leases = w.leases) : Leased w' id := by
  rw [Leased, hleases]
  exact h

variable (h : Leased w other)

include h

/-- A stop takes the lease of its own instance alone. -/
theorem stopInstance (hother : other ≠ id) (call : Call) :
    Leased (w.stopInstance id call) other := by
  rw [World.stopInstance]
  cases w.rows id with
  | none => exact h
  | some row =>
    cases call with
    | ok => exact (h.of_releaseLease hother rfl).congr rfl
    | failed _ => exact h.congr rfl

theorem rebuildInstance (id : String) (call : Call) : Leased (w.rebuildInstance id call) other := by
  rw [World.rebuildInstance]
  cases w.rows id with
  | none => exact h
  | some row => cases call <;> exact h.congr rfl

/-- A restart gives back only a lease that it took. -/
theorem restartInstance (id : String) (admitted : Bool) (call : Call) :
    Leased (w.restartInstance id admitted call) other := by
  rw [World.restartInstance]
  cases hrow : w.rows id with
  | none => exact h
  | some row =>
    dsimp only
    split
    · cases call <;> exact h.congr rfl
    · split
      · split
        · exact h
        · rename_i leases hcreate
          obtain ⟨size, hstanding⟩ := h
          have htaken : Leased { w with leases } other :=
            ⟨size, (standing_createLease hcreate).mpr (.inl hstanding)⟩
          cases call with
          | ok => exact htaken.congr rfl
          | failed _ =>
            by_cases hother : other = id
            · subst hother
              exact absurd hstanding (not_standing_of_createLease hcreate)
            · exact (htaken.of_releaseLease hother rfl).congr rfl
      · exact h

theorem ensureRestartedRuntimeLease (id : String) (cpu ram : ℕ) :
    Leased (w.ensureRestartedRuntimeLease id cpu ram) other := by
  rw [World.ensureRestartedRuntimeLease]
  split
  · exact h
  · cases hcreate : createLease w.now (Capacity.restartLease id cpu ram) w.leases with
    | none => exact h
    | some leases =>
      obtain ⟨size, hstanding⟩ := h
      exact ⟨size, (standing_createLease hcreate).mpr (.inl hstanding)⟩

theorem autoRestart (id : String) (call : Call) : Leased (w.autoRestart id call) other := by
  rw [World.autoRestart]
  cases hrow : w.rows id with
  | none => exact h
  | some row =>
    cases call with
    | failed _ => exact h.congr rfl
    | ok =>
      have hbooted : Leased ((w.setVm row.container true).updateStatus id .active) other :=
        h.congr rfl
      exact hbooted.ensureRestartedRuntimeLease id row.cpuCores row.ramConfigMb

theorem deleteInstance (hother : other ≠ id) (stop delete : Call)
    (cleanupFs : Bool) : Leased (w.deleteInstance id stop delete cleanupFs) other := by
  rw [World.deleteInstance]
  cases hrow : w.rows id with
  | none => exact h
  | some row =>
    obtain ⟨size, hstanding⟩ := h
    have hdelete := (Touches.executeDelete hrow stop delete cleanupFs).trans
      fun row' hrow' => .softDelete hrow'
    exact ⟨size, (hdelete.standing_other hother).mpr hstanding⟩

end Leased

/-- A flow that keeps the leases true, and those of the instances that are still to be created,
may be run. -/
theorem Sound.run (h : Sound s) (flow : World → World) (hrun : s.run flow = some t)
    (htruthful : Truthful (flow s.world))
    (hleased : ∀ other, s.awaits other → Leased s.world other → Leased (flow s.world) other) :
    Sound t := by
  obtain ⟨_, -, hrun⟩ := Option.bind_eq_some_iff.mp hrun
  cases hrun
  exact ⟨htruthful, fun other hawaits => hleased other hawaits (h.leased other hawaits), h.once,
    h.apart⟩

theorem ne_of_awaits (hid : s.awaits id = false) (hother : s.awaits other) : other ≠ id := by
  rintro rfl
  exact absurd (hid.symm.trans hother) Bool.false_ne_true

/-- A new instance waits for its create job with a lease. -/
theorem Sound.createRequest (h : Sound s) {name clawType : String} {cpu ram disk : ℕ}
    {useWarmPool : Bool} {world : World}
    (hinsert : s.world.insertInstance name clawType cpu ram disk useWarmPool = some world) :
    Sound { s with world, pending := s.pending ++ ["inst-" ++ name] } := by
  obtain ⟨row, -, hinserted⟩ := inserted_of_insertInstance hinsert
  generalize "inst-" ++ name = id at hinserted ⊢
  have hfresh : ¬ s.awaits id := by
    intro hawaits
    obtain ⟨size, hstanding⟩ := h.leased id hawaits
    obtain ⟨found, hfound, -⟩ := (h.truthful.all id).belongs _ size rfl rfl hstanding
    exact absurd (hinserted.fresh.symm.trans hfound) nofun
  rw [awaits_iff, not_or] at hfresh
  refine ⟨hinserted.truthful h.truthful, fun other hawaits => ?_, ?_, fun other hcreating => ?_⟩
  · by_cases hother : other = id
    · subst hother
      exact ⟨row.size, (hinserted.leases _ _ rfl).mpr (.inr (.inl ⟨rfl, rfl⟩))⟩
    · have hbefore : s.awaits other := by
        rw [awaits_iff] at hawaits ⊢
        simpa [hother] using hawaits
      obtain ⟨size, hstanding⟩ := h.leased other hbefore
      exact ⟨size, (hinserted.standing_other rfl hother).mpr hstanding⟩
  · exact h.once.append (List.nodup_singleton id) (by simpa using hfresh.1)
  · have hne : other ≠ id := by
      rintro rfl
      exact hfresh.2 hcreating
    simpa [hne] using h.apart other hcreating

/-- The executor takes a create job up. -/
theorem Sound.beginCreate (h : Sound s) (hpending : id ∈ s.pending) :
    Sound { s with
      world := s.world.beginCreate id
      pending := s.pending.erase id
      creating := some id } := by
  have hleased := h.leased id (awaits_iff.mpr (.inl hpending))
  obtain ⟨size, hstanding⟩ := hleased
  obtain ⟨row, hrow, -⟩ := (h.truthful.all id).belongs _ size rfl rfl hstanding
  refine ⟨h.truthful.beginCreate hrow, fun other hawaits => ?_, h.once.erase id, ?_⟩
  · have hbefore : s.awaits other := by
      rcases awaits_iff.mp hawaits with hmem | hcreating
      · exact awaits_iff.mpr (.inl (List.mem_of_mem_erase hmem))
      · exact awaits_iff.mpr (.inl (Option.some.inj hcreating ▸ hpending))
    obtain ⟨size, hstanding⟩ := h.leased other hbefore
    exact ⟨size, standing_extendLease.mpr hstanding⟩
  · rintro other ⟨⟩
    exact h.once.not_mem_erase

/-- A create flow ends. -/
theorem Sound.endCreate (h : Sound s) {row : InstanceRow} (hcreating : s.creating = some id)
    (hrow : s.world.rows id = some row) {create cleanup : Call}
    (hvm : create = .ok ∨ cleanup.survived create.started = false) :
    Sound { s with
      world := (s.world.endCreate id row.container create cleanup).updateStatus id
        (if create = .ok then .active else .failed)
      creating := none } := by
  have hleased := h.leased id (awaits_iff.mpr (.inr hcreating))
  obtain ⟨row', hrow', -⟩ := (Touches.endCreate hrow create cleanup).kept
  refine ⟨(h.truthful.endCreate hrow hleased hvm).updateStatus hrow' _, fun other hawaits => ?_,
    h.once, nofun⟩
  have hmem : other ∈ s.pending := (awaits_iff.mp hawaits).resolve_right nofun
  have hother : other ≠ id := by
    rintro rfl
    exact h.apart other hcreating hmem
  obtain ⟨size, hstanding⟩ := h.leased other (awaits_iff.mpr (.inl hmem))
  cases create with
  | ok => exact ⟨size, standing_finalizeLease.mpr hstanding⟩
  | failed running =>
    exact ⟨size, standing_releaseAllLeases.mpr ⟨fun howner => hother howner.2, hstanding⟩⟩

/-- A pass of the reaper over idle instances. -/
theorem Sound.reap (h : Sound s)
    (hidle : ∀ lease ∈ expiredRuntimeLeases s.world.now s.world.leases,
      lease.key.ownerType = .forInstance → s.idle lease.key.ownerId) :
    Sound { s with world := s.world.reapExpiredLeasesOnce } where
  truthful := h.truthful.reap _ fun lease hmem howner =>
    (idle_iff.mp (hidle lease hmem howner)).2
  leased id hawaits := by
    refine (h.leased id hawaits).reap _ fun lease hmem howner heq => ?_
    have hnot := (idle_iff.mp (hidle lease hmem howner)).1
    rw [heq] at hnot
    exact hnot hawaits
  once := h.once
  apart := h.apart

/-- A start of the server that finds idle instances dead. -/
theorem Sound.startup (h : Sound s) {cleanedContainers : List String} {envExists : String → Bool}
    {toRestart : String → Bool}
    (hidle : ∀ lease ∈ s.world.leases, lease.unreleased → lease.key.ownerType = .forInstance →
      s.world.foundDead cleanedContainers envExists lease.key.ownerId →
      s.idle lease.key.ownerId) :
    Sound ⟨s.world.reconcileAfterSweep cleanedContainers envExists, s.pending, none, toRestart⟩ := by
  have hidle : ∀ id, Leased s.world id → s.world.foundDead cleanedContainers envExists id →
      s.idle id := by
    rintro id ⟨size, lease, hmem, hkey, -, hunreleased⟩ hdead
    have howner : lease.key.ownerId = id := congrArg LeaseKey.ownerId hkey
    rw [← howner] at hdead ⊢
    exact hidle lease hmem hunreleased (congrArg LeaseKey.ownerType hkey) hdead
  refine ⟨h.truthful.reconcileAfterSweep fun id hleased hdead =>
    (idle_iff.mp (hidle id hleased hdead)).2, fun id hawaits => ?_, h.once, nofun⟩
  have hmem : id ∈ s.pending := (awaits_iff.mp hawaits).resolve_right nofun
  have hbefore : s.awaits id := awaits_iff.mpr (.inl hmem)
  have hleased := h.leased id hbefore
  refine hleased.reconcileAfterSweep fun hdead => ?_
  exact (idle_iff.mp (hidle id hleased hdead)).1 hbefore

/-- Every careful step keeps the leases true. -/
theorem Sound.next {action : Action} (h : Sound s) (hcareful : Careful s action)
    (hnext : s.next action = some t) : Sound t := by
  cases action with
  | wait seconds =>
    cases hnext
    exact ⟨⟨h.truthful.indexed, fun id => ⟨(h.truthful.all id).held, (h.truthful.all id).belongs,
      (h.truthful.all id).sized⟩⟩, h.leased, h.once, h.apart⟩
  | vmDies container =>
    cases hnext
    exact ⟨h.truthful.vmDies container, h.leased, h.once, h.apart⟩
  | createRequest name clawType cpu ram disk useWarmPool =>
    obtain ⟨world, hinsert, hnext⟩ := Option.bind_eq_some_iff.mp hnext
    cases hnext
    exact h.createRequest hinsert
  | beginCreate id =>
    obtain ⟨_, hguard, hnext⟩ := Option.bind_eq_some_iff.mp hnext
    cases hnext
    rw [Option.guard_eq_some'] at hguard
    exact h.beginCreate hguard.2
  | endCreate create cleanup =>
    obtain ⟨id, hcreating, hnext⟩ := Option.bind_eq_some_iff.mp hnext
    obtain ⟨row, hrow, hnext⟩ := Option.bind_eq_some_iff.mp hnext
    cases hnext
    exact h.endCreate hcreating hrow hcareful
  | stop id call =>
    exact h.run (·.stopInstance id call) hnext (h.truthful.stopInstance id call)
      fun other hother hleased => hleased.stopInstance (ne_of_awaits hcareful hother) call
  | restart id admitted call =>
    exact h.run (·.restartInstance id admitted call) hnext
      (h.truthful.restartInstance (World.undeleted_iff.mp hcareful.1) hcareful.2)
      fun other _ hleased => hleased.restartInstance id admitted call
  | rebuild id call =>
    exact h.run (·.rebuildInstance id call) hnext
      (h.truthful.rebuildInstance (World.leased_iff.mp hcareful))
      fun other _ hleased => hleased.rebuildInstance id call
  | delete id stop delete cleanupFs =>
    obtain ⟨hawaits, rfl, hvm⟩ := hcareful
    refine h.run (·.deleteInstance id stop delete true) hnext
      (h.truthful.deleteInstance fun row hrow => ?_) fun other hother hleased =>
        hleased.deleteInstance (ne_of_awaits hawaits hother) stop delete true
    simpa [hrow] using hvm
  | reap =>
    cases hnext
    exact h.reap hcareful
  | startup cleanedContainers envExists =>
    cases hnext
    exact h.startup hcareful
  | autoRestart id call =>
    obtain ⟨_, -, hnext⟩ := Option.bind_eq_some_iff.mp hnext
    have hrestarted : Sound { s with toRestart := Function.update s.toRestart id false } :=
      ⟨h.truthful, h.leased, h.once, h.apart⟩
    exact hrestarted.run (·.autoRestart id call) hnext
      (h.truthful.autoRestart (World.undeleted_iff.mp hcareful.1) fun hcall =>
        World.leased_iff.mp (hcareful.2 hcall))
      fun other _ hleased => hleased.autoRestart id call

theorem Sound.empty (now : ℕ) : Sound (.empty now) := by
  have htrue : ∀ id, TrueOf (.empty now) id := fun id =>
    ⟨nofun, fun _ _ _ _ hstanding => absurd hstanding not_standing_nil,
      nofun⟩
  exact ⟨⟨nofun, htrue⟩,
    fun _ hawaits => by simp [Site.awaits, Site.empty] at hawaits, List.nodup_nil,
    nofun⟩

/-- An instance is created. -/
def creation : List Action :=
  [.createRequest "a" "picoclaw" 2 2048 10 false, .beginCreate "inst-a", .endCreate .ok .ok]

/-- An instance is created, stopped, restarted and rebuilt, lost and brought up again by the
server, and deleted. -/
def carefulRun : List Action :=
  creation ++
    [.stop "inst-a" .ok, .restart "inst-a" true .ok, .rebuild "inst-a" .ok,
      .vmDies "picoclaw-a", .startup ["picoclaw-a"] (fun _ => true), .autoRestart "inst-a" .ok,
      .reap, .createRequest "b" "picoclaw" 1 1024 10 false, .beginCreate "inst-b",
      .endCreate (.failed true) .ok, .delete "inst-b" (.failed true) .ok true]

/-- A stopped instance is rebuilt. -/
def rebuildRun : List Action := creation ++ [.stop "inst-a" .ok, .rebuild "inst-a" .ok]

/-- An instance is deleted while the runner fails to end its machine. -/
def failedDeleteRun : List Action :=
  creation ++ [.delete "inst-a" (.failed true) (.failed true) true]

/-- An instance is deleted while the clean-up of the file system fails. -/
def uncleanDeleteRun : List Action := creation ++ [.delete "inst-a" .ok .ok false]

end Theyos.Instances

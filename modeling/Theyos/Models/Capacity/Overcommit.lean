import Theyos.Models.Capacity.Invariant

/-!
# When the host is over-committed

A restart of the size of a slot is checked as though the warm lease were handed over to it, and
then gets a lease of its own beside it; and an expired lease whose room was given away counts
again as soon as it is extended or finalised.
-/

namespace Theyos.Capacity

open Machine Store Lease LeaseTable ResourceLease

variable {host : Host} {now : ℕ} {leases leases' : LeaseTable}

section

variable {ttlSecs cpu ram disk : ℕ} {instanceId clawType : String}

section

variable (h : insertWithLeases now ttlSecs instanceId cpu ram disk leases = some leases')

include h

/-- A new instance for which there is room keeps the budgets. -/
theorem room_insertWithLeases
    (hroom : Room host now leases (cpu, ram)) : Room host now leases' 0 := by
  obtain ⟨middle, hruntime, hstorage⟩ := Option.bind_eq_some_iff.mp h
  -- a storage lease adds nothing to the sum
  rw [Room, createLease_eq_some hstorage, sumActiveRuntimeLeases, load_append, load_cons, load_nil,
    runtimeUse, if_neg (by rintro ⟨_, ⟨⟩⟩)]
  exact (sum_createLease_le hruntime).trans hroom

theorem slotSized_insertWithLeases (hslots : SlotSized leases) : SlotSized leases' := by
  obtain ⟨middle, hruntime, hstorage⟩ := Option.bind_eq_some_iff.mp h
  exact (hslots.createLease hruntime nofun).createLease hstorage
    nofun

/-- The runtime lease of a new instance is active. -/
theorem held_insertWithLeases
    (httl : 0 < ttlSecs) : Held now leases' (runtimeKey instanceId) (cpu, ram) := by
  obtain ⟨middle, hruntime, hstorage⟩ := Option.bind_eq_some_iff.mp h
  refine held_of_createLease hstorage ⟨_, (mem_createLease hruntime).mpr (.inr rfl), rfl, rfl, ?_⟩
  simpa [active, unreleased] using httl

end

theorem SlotSized.held (h : SlotSized leases)
    (hactive : hasActiveLease now (warmPoolSlotKey clawType) leases) :
    Held now leases (warmPoolSlotKey clawType) slotSize := by
  obtain ⟨lease, hmem, hkey, hactive⟩ := hasActiveLease_iff.mp hactive
  exact ⟨lease, hmem, hkey, h lease hmem (by rw [hkey]; rfl) (by rw [hkey]; rfl), hactive⟩

/-- Handing a warm lease over gives back the size of a slot. -/
theorem room_release_warm (hslots : SlotSized leases) (hwithin : Room host now leases 0)
    (hactive : hasActiveLease now (warmPoolSlotKey clawType) leases) :
    Room host now (releaseWhere now
      (fun lease => lease.key = warmPoolSlotKey clawType && lease.active now) leases) slotSize := by
  have hfades : Fades now leases now (releaseWhere now
      (fun lease => lease.key = warmPoolSlotKey clawType && lease.active now) leases) :=
    Fades.releaseWhere _
  rcases hfades.held_or_sum_add_le (hslots.held hactive) rfl with hafter | hsum
  · obtain ⟨after, hmem, hkey, -, hactive⟩ := hafter
    have hpicked := (active_of_mem_releaseWhere hmem hactive).2
    rw [hkey, hactive] at hpicked
    simp at hpicked
  · exact hsum.trans (by simpa [Room] using hwithin)

end

variable {s : System} {req : CreateRequest}

/-- An inserted instance keeps the budgets, and its lease can be handed back to the warm pool. -/
theorem Committed.insertInstance (h : Committed host s) {useWarmPool : Bool} {instanceId : String}
    (hcovered : (Holder.create req (.decided useWarmPool)).Covered host s.now s.leases)
    (hinsert : insertInstance s.now req instanceId useWarmPool s.leases = some leases') :
    Committed host ⟨s.now, leases', some (.create req (.inserted instanceId useWarmPool))⟩ := by
  cases useWarmPool with
  | false =>
    refine ⟨room_insertWithLeases hinsert hcovered, slotSized_insertWithLeases hinsert h.slots, ?_⟩
    rintro _ ⟨⟩
    trivial
  | true =>
    have hsize : req.size = slotSize := hcovered
    simp only [Capacity.insertInstance, if_true, insertWithWarmPoolLeases, eq_some_iff] at hinsert
    obtain ⟨_, hactive, hinsert⟩ := hinsert
    have hroom := room_release_warm h.slots h.within hactive
    rw [← hsize] at hroom
    have hheld := held_insertWithLeases hinsert (by decide)
    refine ⟨room_insertWithLeases hinsert hroom,
      slotSized_insertWithLeases hinsert (h.slots.fades (Fades.releaseWhere _)), ?_⟩
    rintro _ ⟨⟩
    exact ⟨hsize, .inr (hsize ▸ hheld)⟩

/-- A request of the size of a slot that matches finds the lease of the slot active. -/
theorem size_and_active_of_requestMatches {clawType : String} {cpu ram : ℕ}
    (h : requestMatchesWarmPoolLease now leases (some clawType) cpu ram) :
    (cpu, ram) = slotSize ∧ hasActiveLease now (warmPoolSlotKey clawType) leases := by
  simp only [requestMatchesWarmPoolLease, Option.any_some, Bool.and_eq_true, decide_eq_true_eq] at h
  obtain ⟨⟨rfl, rfl⟩, hactive⟩ := h
  exact ⟨rfl, hactive⟩

section

variable (h : Committed host s)

include h

/-- A request that passes its check holds the lock with its demand covered. -/
theorem Committed.checkAndHold {availableDiskGb : ℕ} {req : CapacityRequest} {holder : Holder}
    (hholder : ∀ projection, checkCapacity host availableDiskGb s.now s.leases req = .ok
      projection → holder.Covered host s.now s.leases) :
    Committed host (s.checkAndHold host availableDiskGb req holder) := by
  rw [System.checkAndHold]
  split
  · rename_i projection hcheck
    refine ⟨h.within, h.slots, ?_⟩
    rintro _ ⟨⟩
    exact hholder projection hcheck
  · exact h

/-- Whether the warm lease is to be handed over is decided on what is still active. -/
theorem Committed.decide (hlock : s.lock = some (.create req .checked)) :
    (Holder.create req (.decided (requestMatchesWarmPoolLease s.now s.leases (some req.clawType)
      req.cpuCores req.ramMb))).Covered host s.now s.leases := by
  cases hmatch : requestMatchesWarmPoolLease s.now s.leases (some req.clawType) req.cpuCores
    req.ramMb with
  | true => exact (size_and_active_of_requestMatches hmatch).1
  | false =>
    rcases h.holder _ hlock with hroom | ⟨hsize, hroom | ⟨lease, hmem, hkey, -, hactive⟩⟩
    · exact hroom
    · rw [← hsize] at hroom
      exact hroom
    · have hcpu : req.cpuCores = slotCpu := congrArg Prod.fst hsize
      have hram : req.ramMb = slotRam := congrArg Prod.snd hsize
      have hwarm := hasActiveLease_iff.mpr ⟨lease, hmem, hkey, hactive⟩
      simp [requestMatchesWarmPoolLease, hcpu, hram, hwarm] at hmatch

/-- After the release of a rollback there is room for the lease of the warm pool. -/
theorem Committed.rollBack {instanceId : String} {useWarmPool : Bool}
    (hlock : s.lock = some (.create req (.inserted instanceId useWarmPool))) :
    Committed host ⟨s.now, releaseAllLeases s.now .forInstance instanceId s.leases,
      some (.create req (.rolledBack useWarmPool))⟩ := by
  have hfades : Fades s.now s.leases s.now
      (releaseAllLeases s.now .forInstance instanceId s.leases) := .releaseAllLeases ..
  refine ⟨h.within.fades hfades, h.slots.fades hfades, ?_⟩
  rintro _ ⟨⟩
  cases useWarmPool with
  | false => trivial
  | true =>
    obtain ⟨hsize, hcovered⟩ := h.holder _ hlock
    refine ⟨hsize, ?_⟩
    rcases hcovered.fades h.within rfl hfades with hroom | ⟨lease, hmem, hkey, -, hactive⟩
    · exact hroom
    · have hpicked := (active_of_mem_releaseWhere hmem hactive).2
      rw [hkey] at hpicked
      simp [runtimeKey] at hpicked

/-- Every careful step keeps the budgets. -/
theorem Committed.next {t : System} {action : Action}
    (hcareful : Careful s action) (hnext : s.next host action = some t) : Committed host t := by
  cases action with
  | wait seconds =>
    cases hnext
    exact h.fades (.wait (Nat.le_add_right _ _))
  | createCheck req availableDiskGb =>
    obtain ⟨_, -, hnext⟩ := Option.bind_eq_some_iff.mp hnext
    cases hnext
    refine h.checkAndHold fun projection hcheck => ?_
    cases hmatch : requestMatchesWarmPoolLease s.now s.leases (some req.clawType) req.cpuCores
      req.ramMb with
    | false => exact .inl (room_of_checkCapacity hcheck hmatch)
    | true =>
      obtain ⟨hsize, hactive⟩ := size_and_active_of_requestMatches hmatch
      exact .inr ⟨hsize, .inr (h.slots.held hactive)⟩
  | createDecide =>
    rw [System.next] at hnext
    split at hnext
    · rename_i req hlock
      cases hnext
      refine ⟨h.within, h.slots, ?_⟩
      rintro _ ⟨⟩
      exact h.decide hlock
    · nomatch hnext
  | createInsert instanceId =>
    rw [System.next] at hnext
    split at hnext
    · rename_i req useWarmPool hlock
      split at hnext
      · rename_i leases hinsert
        cases hnext
        exact h.insertInstance (h.holder _ hlock) hinsert
      · cases hnext
        exact h.unlock
    · nomatch hnext
  | rollbackRelease stored =>
    rw [System.next] at hnext
    split at hnext
    · rename_i req instanceId useWarmPool hlock
      cases hnext
      cases stored with
      | true => exact h.rollBack hlock
      | false =>
        cases useWarmPool with
        | true => nomatch hcareful (by rw [hlock])
        | false => exact ⟨h.within, h.slots, by rintro _ ⟨⟩; trivial⟩
    · nomatch hnext
  | rollbackRestore =>
    rw [System.next] at hnext
    split at hnext
    · rename_i req hlock
      cases hnext
      obtain ⟨hsize, hroom⟩ := h.holder _ hlock
      rw [← hsize, ← zero_add req.size] at hroom
      exact h.tryLease hroom (fun _ => hsize) nofun
    · nomatch hnext
  | restartCheck instanceId clawType cpu ram availableDiskGb =>
    obtain ⟨_, -, hnext⟩ := Option.bind_eq_some_iff.mp hnext
    split at hnext
    · cases hnext
      exact h
    · rename_i hlease
      cases hnext
      exact h.checkAndHold fun projection hcheck =>
        room_of_checkCapacity hcheck (hcareful.resolve_left hlease)
  | restartLease =>
    rw [System.next] at hnext
    split at hnext
    · rename_i instanceId cpu ram hlock
      cases hnext
      have hroom : Room host s.now s.leases (0 + (cpu, ram)) := by
        rw [zero_add]
        exact h.holder _ hlock
      exact h.tryLease hroom (nofun) nofun
    · nomatch hnext
  | reconcileDecide installedClaws slotStates availableDiskGb =>
    obtain ⟨_, -, hnext⟩ := Option.bind_eq_some_iff.mp hnext
    cases hnext
    have hfades : Fades s.now s.leases s.now
        (releaseOrphanedWarmPoolLeases s.now installedClaws s.leases) :=
      fades_releaseOrphanedWarmPoolLeases installedClaws
    have hwithin := h.within.fades hfades
    refine ⟨hwithin, h.slots.fades hfades, ?_⟩
    rintro _ ⟨⟩
    -- the refills of one tick fit together into the budgets
    refine (add_le_add le_rfl (length_admitWithin_nsmul_le ..)).trans ?_
    exact ⟨(Nat.add_sub_cancel' hwithin.1).le, (Nat.add_sub_cancel' hwithin.2).le⟩
  | reconcileLease =>
    rw [System.next] at hnext
    split at hnext
    · rename_i ct targets hlock
      cases hnext
      have hroom : Room host s.now s.leases ((ct :: targets).length • slotSize) :=
        h.holder _ hlock
      rw [List.length_cons, succ_nsmul] at hroom
      refine h.tryLease hroom (fun _ => rfl) ?_
      rintro leases hroom _ ⟨⟩
      exact hroom
    · nomatch hnext
  | dropLock =>
    obtain ⟨_, -, hnext⟩ := Option.bind_eq_some_iff.mp hnext
    cases hnext
    exact h.unlock
  | extendLease key newExpiresAt =>
    cases hnext
    exact h.fades (.extendLease newExpiresAt hcareful)
  | finalizeLease key =>
    cases hnext
    exact h.fades (.setExpiry none hcareful)
  | releaseLease key =>
    cases hnext
    exact h.fades (.releaseLease key)
  | releaseAllLeases ownerType ownerId =>
    cases hnext
    exact h.fades (.releaseAllLeases ownerType ownerId)
  | reap missing =>
    cases hnext
    exact h.fades (.reapExpiredLeases missing)

end

/-- A host whose budgets are those of two slots. -/
def twoSlotHost : Host := { cpuCores := 5, totalRamMb := 5120, totalDiskGb := 100 }

/-- A host whose budgets are those of one slot. -/
def oneSlotHost : Host := { cpuCores := 3, totalRamMb := 2560, totalDiskGb := 100 }

/-- A request of the size of a slot. -/
def slotRequest : CreateRequest := ⟨"picoclaw", 2, 2048, 10⟩

/-- A tick that refills the slot of the one claw that is installed. -/
def refillTick : List Action :=
  [.reconcileDecide ["picoclaw"] (fun _ => .empty) 100, .reconcileLease, .dropLock]

/-- A create request that succeeds. -/
def createRun (instanceId : String) : List Action :=
  [.createCheck slotRequest 100, .createDecide, .createInsert instanceId, .dropLock]

/-- A warm instance comes up beside a refilled slot, and a smaller one is restarted after it
stopped. -/
def carefulRun : List Action :=
  refillTick ++ createRun "a" ++
    [.extendLease (runtimeKey "a") 2000, .wait 60, .finalizeLease (runtimeKey "a")] ++ refillTick ++
    [.releaseLease (runtimeKey "a"), .restartCheck "b" "picoclaw" 1 1024 100, .restartLease]

/-- An instance is created and stopped, the pool takes the room, and the instance restarts. -/
def warmRestartRun : List Action :=
  createRun "a" ++ [.finalizeLease (runtimeKey "a"), .releaseLease (runtimeKey "a")] ++
    refillTick ++ [.restartCheck "a" "picoclaw" 2 2048 100, .restartLease]

/-- An instance comes up so slowly that its lease expires, another takes the room, and the lease
of the first is extended. -/
def lateExtensionRun : List Action :=
  createRun "a" ++ [.wait 1200] ++ createRun "b" ++ [.extendLease (runtimeKey "a") 2400]

end Theyos.Capacity

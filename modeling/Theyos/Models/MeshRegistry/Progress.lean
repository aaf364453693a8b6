import Theyos.Core.Machine.Fairness
import Theyos.Models.MeshRegistry.Linearization

/-!
# Revokers get through

When the scheduler is fair, the lock is free again and again: whoever holds it has few steps left
until it is released. A revoker therefore closes the session once it is not pending, every guard
is dropped, and the revoker returns.
-/

namespace Theyos.MeshRegistry

open Machine SessionSync

/-- How far a revoker is from its return, once the session is not pending. -/
def RevokerPc.rank : RevokerPc → ℕ
  | .beforeWait => 9
  | .announced | .phaseWait => 8
  | .atPhase => 7
  | .closing => 6
  | .readerWoken => 5
  | .atReaders => 4
  | .draining => 3
  | .released => 2
  | .readerWait | .finished => 0

/-- How many steps a reader takes at most until it releases the lock. -/
def ReaderPc.lockRank : ReaderPc → ℕ
  | .locked => 3
  | .lockedNoIntent => 2
  | .lockedActive | .dropping => 1
  | _ => 0

/-- How many steps a revoker takes at most until it releases the lock. -/
def RevokerPc.lockRank : RevokerPc → ℕ
  | .atPhase => 5
  | .closing => 4
  | .atReaders => 3
  | .draining => 2
  | .beforeWait => 1
  | _ => 0

/-- What the holder of the lock does next. -/
def Holder.action : Holder → Action
  | .reader i => .reader i
  | .revoker j => .revoker j

namespace SessionSync

variable {s s' : SessionSync} {a : Action} {i j : ℕ} {r : Reader} {pc : RevokerPc}

/-- A step of a reader moves it, and nobody else but the revokers it wakes. -/
theorem readerStep_moves (h : s.readerStep i r = some s') :
    (∃ pc, s'.readers = s.readers.set i { r with pc := pc }) ∧
      (s'.revokers = s.revokers ∨ s'.revokers = s.revokers.map wakeRevoker) := by
  obtain ⟨pc, late⟩ := r
  cases pc with
  | entered | sawNoIntent | lockedActive =>
    cases h
    exact ⟨⟨_, rfl⟩, .inl rfl⟩
  | sawActive =>
    simp only [readerStep] at h
    split at h <;>
    · obtain ⟨-, rfl⟩ := lock_map_eq_some.mp h
      exact ⟨⟨_, rfl⟩, .inl rfl⟩
  | locked | lockedNoIntent =>
    cases h
    split <;> exact ⟨⟨_, rfl⟩, .inl rfl⟩
  | dropping =>
    cases h
    split
    · exact ⟨⟨_, rfl⟩, .inr rfl⟩
    · exact ⟨⟨_, rfl⟩, .inl rfl⟩
  | refused | holding | dropped => cases h

/-- A step of a revoker moves it and nobody else, closer to its return. -/
theorem revokerStep_moves (h : s.revokerStep j pc = some s') :
    ∃ pc', s'.revokers = s.revokers.set j pc' ∧ s'.readers = s.readers ∧
      (s.phase ≠ .pending → (pc = .atReaders → s.activeReaders = 0) → pc'.rank < pc.rank) := by
  cases pc with
  | announced | phaseWait | readerWoken =>
    obtain ⟨-, rfl⟩ := lock_map_eq_some.mp h
    exact ⟨_, rfl, rfl, fun _ _ => by decide⟩
  | atPhase =>
    cases h
    refine ⟨_, rfl, rfl, fun hphase _ => ?_⟩
    rw [if_neg hphase]
    decide
  | beforeWait | closing | draining | released =>
    cases h
    exact ⟨_, rfl, rfl, fun _ _ => by decide⟩
  | atReaders =>
    cases h
    split
    · next hsome => exact ⟨_, rfl, rfl, fun _ hnone => absurd (hnone rfl) (by omega)⟩
    · exact ⟨_, rfl, rfl, fun _ _ => by decide⟩
  | readerWait | finished => cases h

section

variable (h : s.next a = some s')

include h

/-- Nobody else moves a reader or a revoker, but a revoker can be woken. -/
theorem next_frame :
    (∀ {i : ℕ} {r}, s.readers[i]? = some r → a ≠ .reader i → a ≠ .drop i → s'.readers[i]? = some r) ∧
      ∀ {j : ℕ} {pc}, s.revokers[j]? = some pc → a ≠ .revoker j →
        s'.revokers[j]? = some pc ∨ s'.revokers[j]? = some (wakeRevoker pc) := by
  have hwoken {j : ℕ} {pc} (hj : s.revokers[j]? = some pc) :
      (s.revokers.map wakeRevoker)[j]? = some (wakeRevoker pc) := by
    rw [List.getElem?_map, hj]
    rfl
  cases a with
  | enter =>
    cases h
    refine ⟨fun hi _ _ => ?_, fun hj _ => .inl hj⟩
    exact List.getElem?_append_left (List.getElem?_eq_some_iff.mp hi).1 ▸ hi
  | announce =>
    cases h
    refine ⟨fun hi _ _ => hi, fun hj _ => .inl ?_⟩
    exact List.getElem?_append_left (List.getElem?_eq_some_iff.mp hj).1 ▸ hj
  | reader k =>
    simp only [next] at h
    split at h
    · obtain ⟨⟨pc, hreaders⟩, hrevokers⟩ := readerStep_moves h
      refine ⟨fun hi hreader _ => ?_, fun hj _ => ?_⟩
      · rwa [hreaders, List.getElem?_set_ne (mt (congrArg _) hreader)]
      · rcases hrevokers with hsame | hmap
        · exact .inl (hsame ▸ hj)
        · exact .inr (hmap ▸ hwoken hj)
    · cases h
  | drop k =>
    simp only [next] at h
    split at h
    · split at h
      · obtain ⟨-, rfl⟩ := lock_map_eq_some.mp h
        refine ⟨fun hi _ hdrop => ?_, fun hj _ => .inl hj⟩
        exact (List.getElem?_set_ne (mt (congrArg _) hdrop)).trans hi
      · cases h
    · cases h
  | revoker k =>
    simp only [next] at h
    split at h
    · obtain ⟨pc', hrevokers, hreaders, -⟩ := revokerStep_moves h
      refine ⟨fun hi _ _ => hreaders ▸ hi, fun hj ha => .inl ?_⟩
      rwa [hrevokers, List.getElem?_set_ne (mt (congrArg _) ha)]
    · cases h
  | commitAfterAck | closeIfPending | poison =>
    simp only [next] at h
    split at h
    · obtain rfl := Option.some.inj h
      exact ⟨fun hi _ _ => hi, fun hj _ => .inl hj⟩
    · cases h
  | notify =>
    simp only [next] at h
    split at h
    · obtain rfl := Option.some.inj h
      exact ⟨fun hi _ _ => hi, fun hj _ => .inr (hwoken hj)⟩
    · cases h
  | wake k =>
    simp only [next] at h
    split at h
    · next pc' hk =>
      obtain rfl := Option.some.inj h
      refine ⟨fun hi _ _ => hi, fun {j pc} hj _ => ?_⟩
      by_cases heq : k = j
      · subst heq
        obtain rfl := Option.some.inj (hj.symm.trans hk)
        exact .inr (List.getElem?_set_self (List.getElem?_eq_some_iff.mp hj).1)
      · exact .inl ((List.getElem?_set_ne heq).trans hj)
    · cases h

/-- Nobody else moves a revoker that does not wait for the guards. -/
theorem revoker_stays (hj : s.revokers[j]? = some pc)
    (ha : a ≠ .revoker j) (hpc : pc ≠ .readerWait) : s'.revokers[j]? = some pc := by
  have hframe := (next_frame h).2 hj ha
  rwa [wakeRevoker_of_ne hpc, or_self] at hframe

/-- A revoker that was announced stays in the table. -/
theorem revoker_listed (hj : s.revokers[j]? = some pc) : ∃ pc, s'.revokers[j]? = some pc := by
  by_cases ha : a = .revoker j
  · subst ha
    simp only [next, hj] at h
    obtain ⟨pc', hrevokers, -⟩ := revokerStep_moves h
    rw [hrevokers]
    exact ⟨pc', List.getElem?_set_self (List.getElem?_eq_some_iff.mp hj).1⟩
  · rcases (next_frame h).2 hj ha with hsame | hwoken
    · exact ⟨_, hsame⟩
    · exact ⟨_, hwoken⟩

/-- A revoker that has returned stays so. -/
theorem revoker_finished (hj : s.revokers[j]? = some .finished) :
    s'.revokers[j]? = some .finished := by
  refine revoker_stays h hj ?_ nofun
  rintro rfl
  simp only [next, hj] at h
  cases h

end

/-- How many steps the holder of the lock takes at most until it releases the lock. -/
def lockRank (s : SessionSync) : Holder → ℕ
  | .reader i => (s.readers[i]?).elim 0 (·.pc.lockRank)
  | .revoker j => (s.revokers[j]?).elim 0 (·.lockRank)

theorem next_reader (hi : s.readers[i]? = some r) : s.next (.reader i) = s.readerStep i r := by
  simp only [next, hi]

theorem next_revoker (hj : s.revokers[j]? = some pc) :
    s.next (.revoker j) = s.revokerStep j pc := by
  simp only [next, hj]

/-- A revoker that does not wait for the guards can take a step when the lock is free. -/
theorem revokerStep_isSome (hfree : s.holder = none) (hpc : pc.rank ≠ 0) :
    (s.revokerStep j pc).isSome := by
  cases pc with
  | announced | phaseWait | readerWoken => simp [revokerStep, lock, hfree]
  | readerWait | finished => exact absurd rfl hpc
  | _ => rfl

/-- A reader that holds the lock releases it or comes closer to that. -/
theorem readerStep_releases (hheld : s.holder = some (.reader i)) (hholds : r.pc.holds) :
    ∃ s', s.readerStep i r = some s' ∧ (s'.holder = none ∨ s'.holder = some (.reader i) ∧
      ∃ pc, s'.readers = s.readers.set i { r with pc := pc } ∧ pc.lockRank < r.pc.lockRank) := by
  obtain ⟨pc, late⟩ := r
  cases pc with
  | locked =>
    refine ⟨_, rfl, ?_⟩
    split
    · exact .inl rfl
    · exact .inr ⟨hheld, _, rfl, Nat.lt_succ_self _⟩
  | lockedNoIntent =>
    refine ⟨_, rfl, ?_⟩
    split
    · exact .inr ⟨hheld, _, rfl, Nat.lt_succ_self _⟩
    · exact .inl rfl
  | lockedActive => exact ⟨_, rfl, .inl rfl⟩
  | dropping =>
    refine ⟨_, rfl, ?_⟩
    split <;> exact .inl rfl
  | entered | sawNoIntent | sawActive | refused | holding | dropped => cases hholds

/-- A revoker that holds the lock releases it or comes closer to that. -/
theorem revokerStep_releases (hheld : s.holder = some (.revoker j)) (hholds : pc.holds) :
    ∃ s', s.revokerStep j pc = some s' ∧ (s'.holder = none ∨ s'.holder = some (.revoker j) ∧
      ∃ pc', s'.revokers = s.revokers.set j pc' ∧ pc'.lockRank < pc.lockRank) := by
  cases pc with
  | atPhase =>
    refine ⟨_, rfl, .inr ⟨hheld, _, rfl, ?_⟩⟩
    split <;> decide
  | beforeWait | draining => exact ⟨_, rfl, .inl rfl⟩
  | closing => exact ⟨_, rfl, .inr ⟨hheld, _, rfl, by decide⟩⟩
  | atReaders =>
    refine ⟨_, rfl, ?_⟩
    split
    · exact .inl rfl
    · exact .inr ⟨hheld, _, rfl, by decide⟩
  | announced | phaseWait | readerWait | readerWoken | released | finished => cases hholds

/-- Whoever holds the lock can take a step, and is then closer to its release. -/
theorem Sound.holder_step (h : s.Sound) {me : Holder} (hheld : s.holder = some me) :
    ∃ s', s.next me.action = some s' ∧
      (s'.holder = none ∨ s'.holder = some me ∧ s'.lockRank me < s.lockRank me) := by
  have hlisted := h.holder _ hheld
  cases me with
  | reader i =>
    obtain ⟨r, hi⟩ : ∃ r, s.readers[i]? = some r := ⟨_, List.getElem?_eq_getElem hlisted⟩
    obtain ⟨s', hstep, hafter⟩ :=
      readerStep_releases hheld ((h.readers i r hi).holds.mpr hheld)
    refine ⟨s', (next_reader hi).trans hstep, hafter.imp_right ?_⟩
    rintro ⟨hheld', pc, hreaders, hlower⟩
    refine ⟨hheld', ?_⟩
    simpa only [lockRank, hi, hreaders, List.getElem?_set_self hlisted, Option.elim_some]
  | revoker j =>
    obtain ⟨pc, hj⟩ : ∃ pc, s.revokers[j]? = some pc := ⟨_, List.getElem?_eq_getElem hlisted⟩
    obtain ⟨s', hstep, hafter⟩ :=
      revokerStep_releases hheld ((h.revokers j pc hj).holds.mpr hheld)
    refine ⟨s', (next_revoker hj).trans hstep, hafter.imp_right ?_⟩
    rintro ⟨hheld', pc', hrevokers, hlower⟩
    refine ⟨hheld', ?_⟩
    simpa only [lockRank, hj, hrevokers, List.getElem?_set_self hlisted, Option.elim_some]

/-- What the others do leaves the lock and its holder alone. -/
theorem Sound.holder_frame (h : s.Sound) {me : Holder} (hheld : s.holder = some me)
    (hnext : s.next a = some s') (ha : a ≠ me.action) :
    s'.holder = some me ∧ s'.lockRank me = s.lockRank me := by
  have hlisted := h.holder _ hheld
  have hsound := (h.next hnext).sound
  cases me with
  | reader i =>
    obtain ⟨r, hi⟩ : ∃ r, s.readers[i]? = some r := ⟨_, List.getElem?_eq_getElem hlisted⟩
    have hholds := (h.readers i r hi).holds.mpr hheld
    have hdrop : a ≠ .drop i := by
      rintro rfl
      simp only [SessionSync.next, hi] at hnext
      split at hnext
      · next hpc =>
        rw [hpc] at hholds
        cases hholds
      · cases hnext
    have hi' := (next_frame hnext).1 hi ha hdrop
    exact ⟨(hsound.readers i r hi').holds.mp hholds, by simp only [lockRank, hi, hi']⟩
  | revoker j =>
    obtain ⟨pc, hj⟩ : ∃ pc, s.revokers[j]? = some pc := ⟨_, List.getElem?_eq_getElem hlisted⟩
    have hholds := (h.revokers j pc hj).holds.mpr hheld
    have hwait : pc ≠ .readerWait := by
      rintro rfl
      cases hholds
    have hj' := revoker_stays hnext hj ha hwait
    exact ⟨(hsound.revokers j pc hj').holds.mp hholds, by simp only [lockRank, hj, hj']⟩

/-- The session is closed, and at most so many guards are left. -/
def ClosedWithin (k : ℕ) (s : SessionSync) : Prop := s.phase = .closed ∧ s.activeReaders ≤ k

theorem ClosedWithin.next {k : ℕ} (h : s.ClosedWithin k) (hs : s.Sound)
    (hnext : s.next a = some s') : s'.ClosedWithin k := by
  obtain ⟨me, hguarantee⟩ := (hs.next hnext).guarantee
  exact ⟨hguarantee.closed h.1, (hguarantee.activeReaders h.1).trans h.2⟩

/-- So it is, and a reader is somewhere. -/
def ReaderWithin (k i : ℕ) (r : Reader) (s : SessionSync) : Prop :=
  s.ClosedWithin k ∧ s.readers[i]? = some r

theorem activeReaders_dropping {late : Bool} (h : s.readerStep i ⟨.dropping, late⟩ = some s') :
    s'.activeReaders = s.activeReaders - 1 := by
  cases h
  split <;> rfl

end SessionSync

/-- Everyone who uses a gate is treated fairly, and owners of guards try to drop them. -/
structure Fair (b : Behaviour SessionSync.next) : Prop where
  reader : ∀ i, b.StronglyFair (.reader i)
  drop : ∀ i, b.StronglyFair (.drop i)
  revoker : ∀ j, b.StronglyFair (.revoker j)

section

variable {b : Behaviour SessionSync.next}

theorem sound_always (hstart : b.state 0 = .newPending) (n : ℕ) : (b.state n).Sound :=
  b.keeps (I := SessionSync.Sound) (fun _ _ _ h hnext => (h.next hnext).sound) (Nat.zero_le n)
    (hstart ▸ .newPending)

variable (hsound : ∀ n, (b.state n).Sound) (hfair : Fair b)

include hsound hfair

/-- The lock is free again and again. -/
theorem lock_free_often (n : ℕ) : ∃ m ≥ n, (b.state m).holder = none := by
  cases hholder : (b.state n).holder with
  | none => exact ⟨n, Nat.le_refl n, hholder⟩
  | some me =>
    have haction : b.StronglyFair me.action := by
      cases me with
      | reader i => exact hfair.reader i
      | revoker j => exact hfair.revoker j
    suffices hleads : LeadsTo (fun n => (b.state n).holder = some me)
        (fun n => (b.state n).holder = none) from hleads n hholder
    refine .of_rank (fun n => (b.state n).lockRank me) fun n hheld => ?_
    refine haction.leadsTo
      (P := fun s => s.holder = some me ∧ s.lockRank me = (b.state n).lockRank me)
      (Q := fun s => s.holder = none ∨ s.holder = some me ∧ s.lockRank me < (b.state n).lockRank me)
      (fun m a s hm hnext hother => ?_) (fun m s hm hact => ?_) (fun m hm => ?_) n ⟨hheld, rfl⟩
    · obtain ⟨hholder, hrank⟩ := (hsound m).holder_frame hm.1 hnext hother
      exact ⟨hholder, hrank.trans hm.2⟩
    · obtain ⟨s', hnext, hafter⟩ := (hsound m).holder_step hm.1
      obtain rfl := Option.some.inj (hact.symm.trans hnext)
      exact hafter.imp_right fun hlower => ⟨hlower.1, hm.2 ▸ hlower.2⟩
    · obtain ⟨s', hnext, -⟩ := (hsound m).holder_step (hm m (Nat.le_refl m)).1
      exact ⟨m, Nat.le_refl m, by rw [hnext]; rfl⟩

/-- A revoker gets to where it wants while nothing makes it wait. -/
theorem revoker_leadsTo (j : ℕ) {R : SessionSync → Prop} {D : RevokerPc → Prop}
    (hready : ∀ s a s', s.Sound ∧ R s → s.next a = some s' → R s')
    (hgoes : ∀ s pc, s.Sound → R s → s.revokers[j]? = some pc → ¬ D pc →
      pc.rank ≠ 0 ∧ s.phase ≠ .pending ∧ (pc = .atReaders → s.activeReaders = 0)) :
    LeadsTo (fun n => R (b.state n) ∧ ∃ pc, (b.state n).revokers[j]? = some pc)
      (fun n => ∃ pc, (b.state n).revokers[j]? = some pc ∧ D pc) := by
  refine .of_rank (fun n => ((b.state n).revokers[j]?).elim 0 (·.rank)) ?_
  rintro n ⟨hn, pc, hj⟩
  by_cases hdone : D pc
  · exact ⟨n, Nat.le_refl n, .inl ⟨pc, hj, hdone⟩⟩
  have hrank : ∀ m, R (b.state m) → (b.state m).revokers[j]? = some pc → pc.rank ≠ 0 :=
    fun m hm hpc => (hgoes _ pc (hsound m) hm hpc hdone).1
  refine (hfair.revoker j).leadsTo (P := fun s => R s ∧ s.revokers[j]? = some pc)
    (Q := fun s => (∃ pc, s.revokers[j]? = some pc ∧ D pc) ∨ (R s ∧ ∃ pc, s.revokers[j]? = some pc) ∧
      (s.revokers[j]?).elim 0 (·.rank) < ((b.state n).revokers[j]?).elim 0 (·.rank))
    (fun m a s hm hnext ha => ?_) (fun m s hm hnext => ?_) (fun m hm => ?_) n ⟨hn, hj⟩
  · have hwait : pc ≠ .readerWait := fun heq => hrank m hm.1 hm.2 (heq ▸ rfl)
    exact ⟨hready _ a _ ⟨hsound m, hm.1⟩ hnext, revoker_stays hnext hm.2 ha hwait⟩
  · obtain ⟨-, hphase, hreaders⟩ := hgoes _ pc (hsound m) hm.1 hm.2 hdone
    obtain ⟨pc', hrevokers, -, hlower⟩ :=
      revokerStep_moves ((next_revoker hm.2).symm.trans hnext)
    have hj' : s.revokers[j]? = some pc' := by
      rw [hrevokers]
      exact List.getElem?_set_self (List.getElem?_eq_some_iff.mp hm.2).1
    refine .inr ⟨⟨hready _ _ _ ⟨hsound m, hm.1⟩ hnext, pc', hj'⟩, ?_⟩
    rw [hj', hj]
    exact hlower hphase hreaders
  · obtain ⟨k, hk, hfree⟩ := lock_free_often hsound hfair m
    refine ⟨k, hk, ?_⟩
    rw [next_revoker (hm k hk).2]
    exact revokerStep_isSome hfree (hrank k (hm k hk).1 (hm k hk).2)

/-- Once the session is not pending, a revoker closes it. -/
theorem revoker_closes (j : ℕ) :
    LeadsTo (fun n => (b.state n).phase ≠ .pending ∧ ∃ pc, (b.state n).revokers[j]? = some pc)
      (fun n => ∃ pc, (b.state n).revokers[j]? = some pc ∧ pc.hasClosed) := by
  refine revoker_leadsTo hsound hfair j (R := fun s => s.phase ≠ .pending) ?_ ?_
  · rintro s a s' ⟨hs, hphase⟩ hnext
    obtain ⟨me, hguarantee⟩ := (hs.next hnext).guarantee
    exact hguarantee.notPending hphase
  · rintro s pc - hphase - hdone
    revert hdone
    cases pc <;> simp [hphase, RevokerPc.hasClosed, RevokerPc.rank]

/-- Once the session is closed, the owner of a guard starts to drop it. -/
theorem guard_drop_starts (i k : ℕ) (late : Bool) :
    LeadsTo (fun n => ReaderWithin k i ⟨.holding, late⟩ (b.state n))
      (fun n => ReaderWithin k i ⟨.dropping, late⟩ (b.state n)) := by
  refine (hfair.drop i).leadsTo (fun m a s hm hnext ha => ?_) (fun m s hm hnext => ?_)
    (fun m hm => ?_)
  · refine ⟨hm.1.next (hsound m) hnext, (next_frame hnext).1 hm.2 ?_ ha⟩
    rintro rfl
    rw [next_reader hm.2] at hnext
    cases hnext
  · refine ⟨hm.1.next (hsound m) hnext, ?_⟩
    simp only [next, hm.2] at hnext
    obtain ⟨-, hafter⟩ := lock_map_eq_some.mp hnext
    rw [← hafter]
    exact List.getElem?_set_self (List.getElem?_eq_some_iff.mp hm.2).1
  · obtain ⟨l, hl, hfree⟩ := lock_free_often hsound hfair m
    refine ⟨l, hl, ?_⟩
    simp [next, (hm l hl).2, lock, hfree]

/-- A guard that is being dropped is no longer counted soon. -/
theorem guard_drop_ends (i k : ℕ) (late : Bool) :
    LeadsTo (fun n => ReaderWithin (k + 1) i ⟨.dropping, late⟩ (b.state n))
      (fun n => (b.state n).ClosedWithin k) := by
  refine (hfair.reader i).leadsTo (fun m a s hm hnext ha => ?_) (fun m s hm hnext => ?_)
    (fun m hm => ⟨m, Nat.le_refl m, ?_⟩)
  · refine ⟨hm.1.next (hsound m) hnext, (next_frame hnext).1 hm.2 ha ?_⟩
    rintro rfl
    simp only [next, hm.2] at hnext
    cases hnext
  · obtain ⟨hclosed, -⟩ := hm.1.next (hsound m) hnext
    refine ⟨hclosed, ?_⟩
    have hleft := activeReaders_dropping ((next_reader hm.2).symm.trans hnext)
    have := hm.1.2
    omega
  · rw [next_reader (hm m (Nat.le_refl m)).2]
    rfl

/-- Once the session is closed, every guard is dropped. -/
theorem guards_dropped (k : ℕ) :
    LeadsTo (fun n => (b.state n).ClosedWithin k) (fun n => (b.state n).ClosedWithin 0) := by
  induction k with
  | zero => exact fun n hn => ⟨n, Nat.le_refl n, hn⟩
  | succ k ih =>
    refine LeadsTo.trans (fun n hn => ?_) ih
    by_cases hnone : (b.state n).activeReaders = 0
    · exact ⟨n, Nat.le_refl n, hn.1, by omega⟩
    · have hpos : 0 < (b.state n).readers.countP (·.pc.alive) := by
        rw [← (hsound n).activeReaders]
        omega
      obtain ⟨⟨pc, late⟩, hmem, halive⟩ := List.countP_pos_iff.mp hpos
      obtain ⟨i, hi⟩ := List.mem_iff_getElem?.mp hmem
      cases pc with
      | holding =>
        exact ((guard_drop_starts hsound hfair i (k + 1) late).trans
          (guard_drop_ends hsound hfair i k late)) n ⟨hn, hi⟩
      | dropping => exact guard_drop_ends hsound hfair i k late n ⟨hn, hi⟩
      | _ => cases halive

/-- Once no guard is left, a revoker returns. -/
theorem revoker_finishes (j : ℕ) :
    LeadsTo (fun n => (b.state n).ClosedWithin 0 ∧ ∃ pc, (b.state n).revokers[j]? = some pc)
      (fun n => ∃ pc, (b.state n).revokers[j]? = some pc ∧ pc = .finished) := by
  refine revoker_leadsTo hsound hfair j
    (fun s a s' h hnext => h.2.next h.1 hnext) ?_
  rintro s pc hs ⟨hclosed, hnone⟩ hj hdone
  have hwait := (hs.revokers j pc hj).waiting
  refine ⟨?_, by simp [hclosed], fun _ => Nat.le_zero.mp hnone⟩
  revert hdone hwait
  cases pc <;> simp [Nat.le_zero.mp hnone, RevokerPc.rank]

/-- Once the permit is used, every revoker returns. -/
theorem revoker_returns (hpermit : ∃ n, (b.state n).permit ≠ .held) (n j : ℕ)
    (hj : j < (b.state n).revokers.length) :
    ∃ m ≥ n, (b.state m).revokers[j]? = some .finished := by
  obtain ⟨used, hused⟩ := hpermit
  have hphase : (b.state (max n used)).phase ≠ .pending :=
    b.keeps (I := fun s => s.Sound ∧ s.phase ≠ .pending)
      (fun s a s' h hnext => ⟨(h.1.next hnext).sound,
        (h.1.next hnext).guarantee.elim fun _ hguarantee => hguarantee.notPending h.2⟩)
      (le_max_right n used) ⟨hsound used, fun hpending => hused ((hsound used).permit hpending)⟩
      |>.2
  have hlisted {n m : ℕ} (hnm : n ≤ m) :=
    b.keeps (I := fun s => ∃ pc, s.revokers[j]? = some pc)
      (fun s a s' h hnext => h.elim fun _ hpc => revoker_listed hnext hpc) hnm
  obtain ⟨m, hm, pc, hpc, hclosed⟩ := revoker_closes hsound hfair j _
    ⟨hphase, hlisted (le_max_left n used) ⟨_, List.getElem?_eq_getElem hj⟩⟩
  obtain ⟨k, hk, hnone⟩ := guards_dropped hsound hfair _ m
    ⟨((hsound m).revokers j pc hpc).closed hclosed, Nat.le_refl _⟩
  obtain ⟨l, hl, _, hfinished, rfl⟩ := revoker_finishes hsound hfair j k
    ⟨hnone, hlisted hk ⟨pc, hpc⟩⟩
  exact ⟨l, by omega, hfinished⟩

end

namespace SessionSync

variable {s t : SessionSync}

/-- Whatever happens after a revoker returned, the session is closed and has no guard. -/
theorem Sound.closed_after (h : s.Sound) {j : ℕ} (hj : s.revokers[j]? = some .finished)
    {actions : List Action} (hrun : s.run actions = some t) :
    t.phase = .closed ∧ ∀ r ∈ t.readers, r.pc.alive = false := by
  induction actions generalizing s with
  | nil =>
    cases hrun
    have hrevoker := h.revokers j _ hj
    refine ⟨hrevoker.closed rfl, fun r hr => ?_⟩
    have hcount := h.activeReaders.symm.trans (hrevoker.drained rfl)
    exact Bool.eq_false_iff.mpr (List.countP_eq_zero.mp hcount r hr)
  | cons a actions ih =>
    obtain ⟨s', hnext, hrest⟩ := Option.bind_eq_some_iff.mp hrun
    exact ih (h.next hnext).sound (revoker_finished hnext hj) hrest

end SessionSync

/-- A session is committed, a reader is admitted, and a revoker closes the session. -/
def revokedOnce : List Action :=
  .commitAfterAck :: .enter :: List.replicate 6 (.reader 0) ++ .announce ::
    List.replicate 4 (.revoker 0) ++ [.enter, .reader 1, .drop 0, .reader 0] ++
    List.replicate 4 (.revoker 0)

/-- The session when all of that has happened. -/
def revokedState : SessionSync :=
  ⟨0, .closed, false, 0, false, none, .signalling, [⟨.dropped, false⟩, ⟨.refused, true⟩],
    [.finished]⟩

theorem foldlM_revokedOnce : revokedOnce.foldlM next .newPending = some revokedState := by
  decide +kernel

theorem fair_revokedOnce : Fair (.ofList foldlM_revokedOnce) where
  reader i := by
    refine Behaviour.stronglyFair_ofList foldlM_revokedOnce ?_
    match i with
    | 0 | 1 | i + 2 => rfl
  drop i := by
    refine Behaviour.stronglyFair_ofList foldlM_revokedOnce ?_
    match i with
    | 0 | 1 | i + 2 => rfl
  revoker j := by
    refine Behaviour.stronglyFair_ofList foldlM_revokedOnce ?_
    match j with
    | 0 | j + 1 => rfl

/-- The gate is linearised by its writers: whoever enters after one was announced gets no
guard, a writer that returned has closed the session for good, and no writer that is
scheduled fairly waits for ever once the guards are dropped and the permit is used. -/
theorem session_gate_linearisation :
    (∀ actions s, SessionSync.newPending.run actions = some s →
      (∀ (i : ℕ) r, s.readers[i]? = some r → r.late → r.pc.granted = false) ∧
      (∀ j : ℕ, s.revokers[j]? = some .finished → ∀ more t, s.run more = some t →
        t.phase = .closed ∧ ∀ r ∈ t.readers, r.pc.alive = false) ∧
      s.activeReaders = s.readers.countP (·.pc.alive) ∧
      (∀ (i : ℕ) r, s.readers[i]? = some r → r.pc = .dropping → 0 < s.activeReaders) ∧
      ((∀ pc ∈ s.revokers, pc = .finished) → s.writerIntent = 0)) ∧
    ∀ b : Behaviour SessionSync.next, b.state 0 = .newPending → Fair b →
      (∃ n, (b.state n).permit ≠ .held) → ∀ n j, j < (b.state n).revokers.length →
        ∃ m ≥ n, (b.state m).revokers[j]? = some .finished := by
  refine ⟨fun actions s hrun => ?_, fun b hstart hfair hpermit n j hj =>
    revoker_returns (sound_always hstart) hfair hpermit n j hj⟩
  have hs : s.Sound := SessionSync.Sound.newPending.run hrun
  refine ⟨fun i r hi hlate => by
      rcases (hs.readers i r hi).late hlate with hpc | hpc | ⟨hpc, -⟩ <;> rw [hpc] <;> rfl,
    fun j hj more t hmore => hs.closed_after hj hmore, hs.activeReaders, fun i r hi hpc => ?_,
    fun hall => ?_⟩
  · rw [hs.activeReaders]
    exact countP_pos_of_task hi (by rw [hpc]; rfl)
  · rw [hs.writerIntent, List.countP_eq_zero]
    intro pc hpc
    rw [hall pc hpc]
    exact nofun

theorem session_gate_linearisation_once :
    SessionSync.newPending.run revokedOnce = some revokedState ∧
      revokedState.readers[1]? = some ⟨.refused, true⟩ ∧ ReaderPc.granted .refused = false ∧
      ∃ m ≥ 9, ((Behaviour.ofList foldlM_revokedOnce).state m).revokers[0]? = some .finished := by
  have hrun : newPending.run revokedOnce = some revokedState := by decide +kernel
  obtain ⟨hsafe, hlive⟩ := session_gate_linearisation
  exact ⟨hrun, rfl, (hsafe _ _ hrun).1 1 _ rfl rfl,
    hlive (.ofList foldlM_revokedOnce) rfl fair_revokedOnce ⟨2, by decide +kernel⟩ 9 0
      (by decide +kernel)⟩

end Theyos.MeshRegistry

import Theyos.Models.MeshRegistry.Gate

/-!
# Readers and revokers of a gate

What a reader or a revoker relies on is said for each place it can be in, and every step of the
others leaves it alone: only the holder of the lock closes a session that is active, admits a
reader, or drops a guard.
-/

namespace Theyos.MeshRegistry

open Machine

namespace ReaderPc

/-- The reader holds the lock. -/
def holds : ReaderPc → Bool
  | locked | lockedNoIntent | lockedActive | dropping => true
  | _ => false

/-- The reader has a guard. -/
def alive : ReaderPc → Bool
  | holding | dropping => true
  | _ => false

/-- The reader was given a guard. -/
def granted : ReaderPc → Bool
  | holding | dropping | dropped => true
  | _ => false

end ReaderPc

namespace RevokerPc

/-- The revoker holds the lock. -/
def holds : RevokerPc → Bool
  | atPhase | beforeWait | closing | atReaders | draining => true
  | _ => false

/-- The revoker is still counted among the announced writers. -/
def isOpen : RevokerPc → Bool
  | finished => false
  | _ => true

/-- The revoker has closed the session. -/
def hasClosed : RevokerPc → Bool
  | atReaders | readerWait | readerWoken | draining | released | finished => true
  | _ => false

/-- The revoker has seen that no guard is left. -/
def hasDrained : RevokerPc → Bool
  | draining | released | finished => true
  | _ => false

end RevokerPc

theorem wakeRevoker_of_ne {pc : RevokerPc} (h : pc ≠ .readerWait) :
    SessionSync.wakeRevoker pc = pc := by
  cases pc <;> first | rfl | exact absurd rfl h

theorem isOpen_wakeRevoker (pc : RevokerPc) : (SessionSync.wakeRevoker pc).isOpen = pc.isOpen := by
  cases pc <;> rfl

/-- What a reader relies on. -/
structure ReaderOk (s : SessionSync) (i : ℕ) (r : Reader) : Prop where
  holds : r.pc.holds ↔ s.holder = some (.reader i)
  active : r.pc = .lockedActive → s.phase = .active
  announced : r.late → s.revokers ≠ []
  late : r.late → r.pc = .entered ∨ r.pc = .refused ∨ r.pc = .sawNoIntent ∧ s.phase = .closed

theorem ReaderOk.early {s : SessionSync} {i : ℕ} {r : Reader}
    (hholds : r.pc.holds ↔ s.holder = some (.reader i))
    (hactive : r.pc = .lockedActive → s.phase = .active) (hearly : r.late ≠ true) :
    ReaderOk s i r :=
  ⟨hholds, hactive, fun hlate => absurd hlate hearly, fun hlate => absurd hlate hearly⟩

variable (s : SessionSync)

/-- What a revoker relies on. -/
structure RevokerOk (j : ℕ) (pc : RevokerPc) : Prop where
  holds : pc.holds ↔ s.holder = some (.revoker j)
  notPending : pc = .closing → s.phase ≠ .pending
  closed : pc.hasClosed → s.phase = .closed
  drained : pc.hasDrained → s.activeReaders = 0
  waiting : pc = .readerWait → 0 < s.activeReaders

/-- A task that can hold the lock is in the table. -/
def SessionSync.Listed : Holder → Prop
  | .reader i => i < s.readers.length
  | .revoker j => j < s.revokers.length

/-- Everyone can rely on what they need, and the counters count. -/
structure SessionSync.Sound : Prop where
  holder : ∀ h, s.holder = some h → s.Listed h
  readers : AllTasks (ReaderOk s) s.readers
  revokers : AllTasks (RevokerOk s) s.revokers
  activeReaders : s.activeReaders = s.readers.countP (·.pc.alive)
  writerIntent : s.writerIntent = s.revokers.countP (·.isOpen)
  permit : s.phase = .pending → s.permit = .held

/-- What a step of one task guarantees the others; the task is named by the lock it takes. -/
structure Guarantee (me : Option Holder) (s s' : SessionSync) : Prop where
  holder : ∀ h, some h ≠ me → (s.holder = some h ↔ s'.holder = some h)
  phase : s'.phase = s.phase ∨ s.phase = .pending ∨ s'.phase = .closed ∧ s.holder = me ∧ me ≠ none
  activeReaders : s.phase = .closed → s'.activeReaders ≤ s.activeReaders
  announced : s.revokers ≠ [] → s'.revokers ≠ []

/-- The lock stays where it is, or one task takes it or releases it. -/
def Handover (me : Option Holder) (s s' : SessionSync) : Prop :=
  s'.holder = s.holder ∨ s.holder = none ∧ s'.holder = me ∨ s.holder = me ∧ s'.holder = none

namespace Guarantee

variable {me : Option Holder} {s s' : SessionSync}

theorem of_handover (hholder : Handover me s s')
    (hphase : s'.phase = s.phase ∨ s.phase = .pending ∨
      s'.phase = .closed ∧ s.holder = me ∧ me ≠ none)
    (hactive : s.phase = .closed → s'.activeReaders ≤ s.activeReaders)
    (hannounced : s.revokers ≠ [] → s'.revokers ≠ []) : Guarantee me s s' where
  holder h hme := by
    rcases hholder with hsame | ⟨hfree, htaken⟩ | ⟨hheld, hreleased⟩
    · rw [hsame]
    · rw [hfree, htaken]
      exact ⟨nofun, fun heq => absurd heq.symm hme⟩
    · rw [hheld, hreleased]
      exact ⟨fun heq => absurd heq.symm hme, nofun⟩
  phase := hphase
  activeReaders := hactive
  announced := hannounced

section

variable (h : Guarantee me s s')

include h

theorem closed (hclosed : s.phase = .closed) : s'.phase = .closed := by
  rcases h.phase with hsame | hpending | hcloses
  · rw [hsame, hclosed]
  · rw [hclosed] at hpending
    cases hpending
  · exact hcloses.1

/-- A session that is active stays so for whoever holds the lock. -/
theorem active (hactive : s.phase = .active) (hholder : s.holder ≠ me) : s'.phase = .active := by
  rcases h.phase with hsame | hpending | hcloses
  · rw [hsame, hactive]
  · rw [hactive] at hpending
    cases hpending
  · exact absurd hcloses.2.1 hholder

theorem notPending (hphase : s.phase ≠ .pending) : s'.phase ≠ .pending := by
  rcases h.phase with hsame | hpending | hcloses
  · rwa [hsame]
  · exact absurd hpending hphase
  · rw [hcloses.1]
    exact nofun

/-- A reader is not disturbed by the others. -/
theorem readerOk {i : ℕ} {r : Reader} (hr : ReaderOk s i r)
    (hme : some (.reader i) ≠ me) : ReaderOk s' i r where
  holds := hr.holds.trans (h.holder _ hme)
  active hpc := by
    have hholds : s.holder = some (.reader i) := hr.holds.mp (by rw [hpc]; rfl)
    exact h.active (hr.active hpc) (hholds ▸ hme)
  announced hlate := h.announced (hr.announced hlate)
  late hlate := (hr.late hlate).imp_right fun hpc => hpc.imp_right (And.imp_right h.closed)

/-- A revoker is not disturbed by the others, unless it waits and the last guard is dropped. -/
theorem revokerOk {j : ℕ} {pc : RevokerPc} (hpc : RevokerOk s j pc)
    (hme : some (.revoker j) ≠ me) (hwaits : pc = .readerWait → 0 < s'.activeReaders) :
    RevokerOk s' j pc where
  holds := hpc.holds.trans (h.holder _ hme)
  notPending hclosing := h.notPending (hpc.notPending hclosing)
  closed hclosed := h.closed (hpc.closed hclosed)
  drained hdrained := by
    have hclosed : s.phase = .closed := hpc.closed (by revert hdrained; cases pc <;> decide)
    have := h.activeReaders hclosed
    have := hpc.drained hdrained
    omega
  waiting := hwaits

/-- A revoker that is woken is not disturbed. -/
theorem revokerOk_wake {j : ℕ} {pc : RevokerPc} (hpc : RevokerOk s j pc)
    (hme : some (.revoker j) ≠ me) : RevokerOk s' j (SessionSync.wakeRevoker pc) := by
  by_cases hwaits : pc = .readerWait
  · subst hwaits
    have hholds := hpc.holds.trans (h.holder _ hme)
    exact ⟨hholds, nofun, fun _ => h.closed (hpc.closed rfl), nofun, nofun⟩
  · rw [wakeRevoker_of_ne hwaits]
    exact h.revokerOk hpc hme fun hwait => absurd hwait hwaits

/-- Whoever holds the lock is still in the table. -/
theorem listed (hs : ∀ h, s.holder = some h → s.Listed h)
    (hme : ∀ h, some h = me → s.Listed h) (hreaders : s.readers.length ≤ s'.readers.length)
    (hrevokers : s.revokers.length ≤ s'.revokers.length) (holder : Holder)
    (hholder : s'.holder = some holder) : s'.Listed holder := by
  have hlisted : s.Listed holder := by
    by_cases heq : some holder = me
    · exact hme holder heq
    · exact hs holder ((h.holder holder heq).mpr hholder)
  cases holder with
  | reader i => exact Nat.lt_of_lt_of_le hlisted hreaders
  | revoker j => exact Nat.lt_of_lt_of_le hlisted hrevokers

end

end Guarantee

/-- A step keeps what everyone relies on, and guarantees the others what they need. -/
structure SessionSync.Moves (s s' : SessionSync) : Prop where
  sound : s'.Sound
  guarantee : ∃ me, Guarantee me s s'

theorem SessionSync.lock_map_eq_some {s s' : SessionSync} {holder : Holder}
    {f : SessionSync → SessionSync} :
    (s.lock holder).map f = some s' ↔
      s.holder = none ∧ f { s with holder := some holder } = s' := by
  unfold lock
  split
  · next hfree => simp [hfree]
  · next hheld => simp [hheld]

namespace SessionSync.Sound

variable {s s' : SessionSync}

theorem countP_map_wakeRevoker (tasks : List RevokerPc) :
    (tasks.map wakeRevoker).countP (·.isOpen) = tasks.countP (·.isOpen) := by
  rw [List.countP_map]
  congr 1
  funext pc
  exact isOpen_wakeRevoker pc

variable {i j : ℕ} {r : Reader}

/-- A reader moves; the revokers are woken when the last guard is dropped. -/
theorem readerMoves (h : s.Sound) {pc : ReaderPc} (hi : s.readers[i]? = some r)
    (hreaders : s'.readers = s.readers.set i { r with pc := pc })
    (hguarantee : Guarantee (some (.reader i)) s s') (hok : ReaderOk s' i { r with pc := pc })
    (hrevokers : s'.revokers = s.revokers ∧ (0 < s.activeReaders → 0 < s'.activeReaders) ∨
      s'.revokers = s.revokers.map wakeRevoker)
    (hcount : s'.activeReaders + r.pc.alive.toNat = s.activeReaders + pc.alive.toNat)
    (hintent : s'.writerIntent = s.writerIntent) (hphase : s'.phase = s.phase)
    (hpermit : s'.permit = s.permit) : s.Moves s' := by
  have hother (j : ℕ) : some (Holder.revoker j) ≠ some (.reader i) := nofun
  refine ⟨⟨?_, ?_, ?_, ?_, ?_, fun hpending => hpermit ▸ h.permit (hphase ▸ hpending)⟩,
    _, hguarantee⟩
  · refine hguarantee.listed h.holder ?_ (by simp [hreaders]) ?_
    · rintro _ ⟨⟩
      exact (List.getElem?_eq_some_iff.mp hi).1
    · rcases hrevokers with ⟨hsame, -⟩ | hwoken
      · simp [hsame]
      · simp [hwoken]
  · rw [hreaders]
    refine h.readers.set hok fun j a hj ha => hguarantee.readerOk ha ?_
    exact fun heq => hj (Holder.reader.inj (Option.some.inj heq))
  · rcases hrevokers with ⟨hsame, hwaits⟩ | hwoken
    · rw [hsame]
      exact h.revokers.mono fun j pc hpc =>
        hguarantee.revokerOk hpc (hother j) fun hwait => hwaits (hpc.waiting hwait)
    · rw [hwoken]
      exact h.revokers.map fun j pc hpc => hguarantee.revokerOk_wake hpc (hother j)
  · rw [hreaders]
    have hset := countP_set_task (b := { r with pc := pc }) (p := (·.pc.alive)) hi
    have := h.activeReaders
    dsimp only at hset
    omega
  · rw [hintent, h.writerIntent]
    rcases hrevokers with ⟨hsame, -⟩ | hwoken
    · rw [hsame]
    · rw [hwoken, countP_map_wakeRevoker]

variable {pc : RevokerPc}

/-- A revoker moves. -/
theorem revokerMoves (h : s.Sound) {pc' : RevokerPc} (hj : s.revokers[j]? = some pc)
    (hrevokers : s'.revokers = s.revokers.set j pc') (hreaders : s'.readers = s.readers)
    (hguarantee : Guarantee (some (.revoker j)) s s') (hok : RevokerOk s' j pc')
    (hcount : s'.writerIntent + pc.isOpen.toNat = s.writerIntent + pc'.isOpen.toNat)
    (hactive : s'.activeReaders = s.activeReaders)
    (hphase : s'.phase = .pending → s.phase = .pending) (hpermit : s'.permit = s.permit) :
    s.Moves s' := by
  refine ⟨⟨?_, ?_, ?_, ?_, ?_, fun hpending => hpermit ▸ h.permit (hphase hpending)⟩,
    _, hguarantee⟩
  · refine hguarantee.listed h.holder ?_ (by simp [hreaders]) (by simp [hrevokers])
    rintro _ ⟨⟩
    exact (List.getElem?_eq_some_iff.mp hj).1
  · rw [hreaders]
    exact h.readers.mono fun i r hr => hguarantee.readerOk hr nofun
  · rw [hrevokers]
    refine h.revokers.set hok fun k a hk ha => hguarantee.revokerOk ha ?_ fun hwait => ?_
    · exact fun heq => hk (Holder.revoker.inj (Option.some.inj heq))
    · rw [hactive]
      exact ha.waiting hwait
  · rw [hactive, hreaders]
    exact h.activeReaders
  · rw [hrevokers]
    have hset := countP_set_task (b := pc') (p := (·.isOpen)) hj
    have := h.writerIntent
    omega

/-- Once a writer has announced itself, one is counted or the session is closed. -/
theorem announced (h : s.Sound) (hrevokers : s.revokers ≠ []) :
    0 < s.writerIntent ∨ s.phase = .closed := by
  obtain ⟨pc, rest, hcons⟩ := List.exists_cons_of_ne_nil hrevokers
  have hfirst : s.revokers[0]? = some pc := by rw [hcons]; rfl
  by_cases hopen : pc.isOpen
  · rw [h.writerIntent]
    exact .inl (countP_pos_of_task hfirst hopen)
  · refine .inr ((h.revokers 0 pc hfirst).closed ?_)
    revert hopen
    cases pc <;> decide

/-- A reader that leaves the counts alone moves. -/
theorem readerSteps (h : s.Sound) {pc : ReaderPc} {holder : Option Holder}
    (hi : s.readers[i]? = some r)
    (hholder : holder = s.holder ∨ s.holder = none ∧ holder = some (.reader i) ∨ s.holder = some
      (.reader i) ∧ holder = none) (halive : r.pc.alive = pc.alive)
    (hok : ReaderOk { s.setReader i r pc with holder := holder } i { r with pc := pc }) :
    s.Moves { s.setReader i r pc with holder := holder } :=
  h.readerMoves hi rfl (.of_handover hholder (.inl rfl) (fun _ => Nat.le_refl _) id) hok
    (.inl ⟨rfl, id⟩) (by rw [halive]; rfl) rfl rfl rfl

theorem set_ne_nil {revokers : List RevokerPc} (j : ℕ) (h : revokers ≠ []) :
    revokers.set j pc ≠ [] := by
  rwa [Ne, List.set_eq_nil_iff]

section

variable (h : s.Sound)

include h

/-- A revoker that leaves the counts and the phase alone moves. -/
theorem revokerSteps {pc' : RevokerPc} {holder : Option Holder} {writerActive : Bool}
    (hj : s.revokers[j]? = some pc)
    (hholder : holder = s.holder ∨ s.holder = none ∧ holder = some (.revoker j) ∨ s.holder = some
      (.revoker j) ∧ holder = none) (hopen : pc.isOpen = pc'.isOpen)
    (hok : RevokerOk { s.setRevoker j pc' with holder, writerActive } j pc') :
    s.Moves { s.setRevoker j pc' with holder, writerActive } :=
  h.revokerMoves hj rfl rfl
    (.of_handover hholder (.inl rfl) (fun _ => Nat.le_refl _) (set_ne_nil j)) hok
    (by rw [hopen]; rfl) rfl id rfl

/-- Every step of a reader keeps what everyone relies on. -/
theorem readerStep (hi : s.readers[i]? = some r)
    (hstep : s.readerStep i r = some s') : s.Moves s' := by
  have hr := h.readers i r hi
  have hholds := hr.holds
  have hlate := hr.late
  obtain ⟨pc, late⟩ := r
  cases pc with
  | entered =>
    cases hstep
    refine h.readerSteps hi (.inl rfl) (by split <;> rfl) ⟨?_, ?_, hr.announced, fun hl => ?_⟩
    · refine Iff.trans ?_ hholds
      split <;> exact Iff.rfl
    · split <;> exact nofun
    · by_cases hintent : 0 < s.writerIntent
      · rw [if_pos hintent]
        exact .inr (.inl rfl)
      · rw [if_neg hintent]
        exact .inr (.inr ⟨rfl, (h.announced (hr.announced hl)).resolve_left hintent⟩)
  | sawNoIntent =>
    cases hstep
    refine h.readerSteps hi (.inl rfl) (by split <;> rfl) ⟨?_, ?_, hr.announced, fun hl => ?_⟩
    · refine Iff.trans ?_ hholds
      split <;> exact Iff.rfl
    · split <;> exact nofun
    · have hclosed : s.phase = .closed := by simpa using hlate hl
      rw [hclosed]
      exact .inr (.inl rfl)
  | sawActive =>
    have hearly : late ≠ true := fun hl => by simpa using hlate hl
    by_cases hpoisoned : s.poisoned
    · obtain ⟨hfree, rfl⟩ := lock_map_eq_some.mp ((if_pos hpoisoned).symm.trans hstep)
      exact h.readerSteps hi (.inl hfree.symm) rfl (.early ⟨nofun, nofun⟩ nofun hearly)
    · obtain ⟨hfree, rfl⟩ := lock_map_eq_some.mp ((if_neg hpoisoned).symm.trans hstep)
      exact h.readerSteps hi (.inr (.inl ⟨hfree, rfl⟩)) rfl
        (.early ⟨fun _ => rfl, fun _ => rfl⟩ nofun hearly)
  | locked =>
    have hearly : late ≠ true := fun hl => by simpa using hlate hl
    have hheld : s.holder = some (.reader i) := hholds.mp rfl
    cases hstep
    split
    · exact h.readerSteps hi (.inr (.inr ⟨hheld, rfl⟩)) rfl (.early ⟨nofun, nofun⟩ nofun hearly)
    · exact h.readerSteps hi (.inl rfl) rfl (.early ⟨fun _ => hheld, fun _ => rfl⟩ nofun hearly)
  | lockedNoIntent =>
    have hearly : late ≠ true := fun hl => by simpa using hlate hl
    have hheld : s.holder = some (.reader i) := hholds.mp rfl
    cases hstep
    split
    · next hactive =>
      exact h.readerSteps hi (.inl rfl) rfl
        (.early ⟨fun _ => hheld, fun _ => rfl⟩ (fun _ => hactive.2) hearly)
    · exact h.readerSteps hi (.inr (.inr ⟨hheld, rfl⟩)) rfl (.early ⟨nofun, nofun⟩ nofun hearly)
  | lockedActive =>
    have hearly : late ≠ true := fun hl => by simpa using hlate hl
    have hheld : s.holder = some (.reader i) := hholds.mp rfl
    have hactive : s.phase = .active := hr.active rfl
    cases hstep
    refine h.readerMoves hi rfl ?_ (.early ⟨nofun, nofun⟩ nofun hearly)
      (.inl ⟨rfl, fun _ => Nat.succ_pos _⟩) rfl rfl rfl rfl
    refine .of_handover (.inr (.inr ⟨hheld, rfl⟩)) (.inl rfl) (fun hclosed => ?_) id
    rw [hactive] at hclosed
    cases hclosed
  | dropping =>
    have hearly : late ≠ true := fun hl => by simpa using hlate hl
    have hheld : s.holder = some (.reader i) := hholds.mp rfl
    have hpos : 0 < s.activeReaders := by
      rw [h.activeReaders]
      exact countP_pos_of_task hi rfl
    cases hstep
    split
    · refine h.readerMoves hi rfl ?_ (.early ⟨nofun, nofun⟩ nofun hearly) (.inr rfl)
        (Nat.sub_add_cancel hpos) rfl rfl rfl
      exact .of_handover (.inr (.inr ⟨hheld, rfl⟩)) (.inl rfl) (fun _ => Nat.sub_le _ _)
        fun hsome hnone => hsome (List.map_eq_nil_iff.mp hnone)
    · next hleft =>
      refine h.readerMoves hi rfl ?_ (.early ⟨nofun, nofun⟩ nofun hearly)
        (.inl ⟨rfl, fun _ => Nat.pos_of_ne_zero hleft⟩) (Nat.sub_add_cancel hpos) rfl rfl rfl
      exact .of_handover (.inr (.inr ⟨hheld, rfl⟩)) (.inl rfl) (fun _ => Nat.sub_le _ _) id
  | refused | holding | dropped => cases hstep

/-- Every step of a revoker keeps what everyone relies on. -/
theorem revokerStep (hj : s.revokers[j]? = some pc)
    (hstep : s.revokerStep j pc = some s') : s.Moves s' := by
  have hpc := h.revokers j pc hj
  have hholds := hpc.holds
  cases pc with
  | announced | phaseWait =>
    obtain ⟨hfree, rfl⟩ := lock_map_eq_some.mp hstep
    exact h.revokerSteps hj (.inr (.inl ⟨hfree, rfl⟩)) rfl
      ⟨⟨fun _ => rfl, fun _ => rfl⟩, nofun, nofun, nofun, nofun⟩
  | atPhase =>
    have hheld : s.holder = some (.revoker j) := hholds.mp rfl
    cases hstep
    split
    · exact h.revokerSteps hj (.inl rfl) rfl
        ⟨⟨fun _ => hheld, fun _ => rfl⟩, nofun, nofun, nofun, nofun⟩
    · next hphase =>
      exact h.revokerSteps hj (.inl rfl) rfl
        ⟨⟨fun _ => hheld, fun _ => rfl⟩, fun _ => hphase, nofun, nofun, nofun⟩
  | beforeWait =>
    cases hstep
    exact h.revokerSteps hj (.inr (.inr ⟨hholds.mp rfl, rfl⟩)) rfl
      ⟨⟨nofun, nofun⟩, nofun, nofun, nofun, nofun⟩
  | closing =>
    have hheld : s.holder = some (.revoker j) := hholds.mp rfl
    cases hstep
    refine h.revokerMoves hj rfl rfl ?_
      ⟨⟨fun _ => hheld, fun _ => rfl⟩, nofun, fun _ => rfl, nofun, nofun⟩ rfl rfl nofun rfl
    exact .of_handover (.inl rfl) (.inr (.inr ⟨rfl, hheld, nofun⟩)) (fun _ => Nat.le_refl _)
      (set_ne_nil j)
  | atReaders =>
    have hheld : s.holder = some (.revoker j) := hholds.mp rfl
    have hclosed : s.phase = .closed := hpc.closed rfl
    cases hstep
    split
    · next hsome =>
      exact h.revokerSteps hj (.inr (.inr ⟨hheld, rfl⟩)) rfl
        ⟨⟨nofun, nofun⟩, nofun, fun _ => hclosed, nofun, fun _ => hsome⟩
    · next hnone =>
      exact h.revokerSteps hj (.inl rfl) rfl ⟨⟨fun _ => hheld, fun _ => rfl⟩, nofun,
        fun _ => hclosed, fun _ => Nat.eq_zero_of_not_pos hnone, nofun⟩
  | readerWoken =>
    have hclosed : s.phase = .closed := hpc.closed rfl
    obtain ⟨hfree, rfl⟩ := lock_map_eq_some.mp hstep
    exact h.revokerSteps hj (.inr (.inl ⟨hfree, rfl⟩)) rfl
      ⟨⟨fun _ => rfl, fun _ => rfl⟩, nofun, fun _ => hclosed, nofun, nofun⟩
  | draining =>
    have hdrained := hpc.drained rfl
    cases hstep
    exact h.revokerSteps hj (.inr (.inr ⟨hholds.mp rfl, rfl⟩)) rfl
      ⟨⟨nofun, nofun⟩, nofun, fun _ => hpc.closed rfl, fun _ => hdrained, nofun⟩
  | released =>
    have hpos : 0 < s.writerIntent := by
      rw [h.writerIntent]
      exact countP_pos_of_task hj rfl
    cases hstep
    refine h.revokerMoves hj rfl rfl ?_
      ⟨hholds, nofun, fun _ => hpc.closed rfl, fun _ => hpc.drained rfl, nofun⟩
      (Nat.sub_add_cancel hpos) rfl id rfl
    exact .of_handover (.inl rfl) (.inl rfl) (fun _ => Nat.le_refl _) (set_ne_nil j)
  | readerWait | finished => cases hstep

/-- Something happens that moves nobody, but may wake the revokers. -/
theorem outside (hguarantee : Guarantee none s s') (hreaders : s'.readers = s.readers)
    (hrevokers : s'.revokers = s.revokers ∨ s'.revokers = s.revokers.map wakeRevoker)
    (hactive : s'.activeReaders = s.activeReaders) (hintent : s'.writerIntent = s.writerIntent)
    (hpermit : s'.phase = .pending → s'.permit = .held) : s.Moves s' := by
  refine ⟨⟨?_, ?_, ?_, ?_, ?_, hpermit⟩, _, hguarantee⟩
  · refine hguarantee.listed h.holder nofun (by simp [hreaders]) ?_
    rcases hrevokers with hsame | hwoken
    · simp [hsame]
    · simp [hwoken]
  · rw [hreaders]
    exact h.readers.mono fun i r hr => hguarantee.readerOk hr nofun
  · rcases hrevokers with hsame | hwoken
    · rw [hsame]
      exact h.revokers.mono fun j pc hpc =>
        hguarantee.revokerOk hpc nofun fun hwait => hactive ▸ hpc.waiting hwait
    · rw [hwoken]
      exact h.revokers.map fun j pc hpc => hguarantee.revokerOk_wake hpc nofun
  · rw [hactive, hreaders]
    exact h.activeReaders
  · rw [hintent, h.writerIntent]
    rcases hrevokers with hsame | hwoken
    · rw [hsame]
    · rw [hwoken, countP_map_wakeRevoker]

/-- The owner of the permit changes the phase of a pending session. -/
theorem permitUsed {phase : Phase} (hphase : phase ≠ .pending) :
    s.Moves { s with
      permit := .signalling
      phase := if s.phase = .pending then phase else s.phase } := by
  refine h.outside (.of_handover (.inl rfl) ?_ (fun _ => Nat.le_refl _) id) rfl (.inl rfl) rfl rfl
    fun hpending => ?_
  · by_cases hpending : s.phase = .pending
    · exact .inr (.inl hpending)
    · exact .inl (if_neg hpending)
  · split at hpending
    · exact absurd hpending hphase
    · contradiction

/-- A call of `try_enter` starts. -/
theorem enters : s.Moves { s with readers := s.readers ++ [⟨.entered, !s.revokers.isEmpty⟩] } := by
  have hguarantee : Guarantee none s
      { s with readers := s.readers ++ [⟨.entered, !s.revokers.isEmpty⟩] } :=
    .of_handover (.inl rfl) (.inl rfl) (fun _ => Nat.le_refl _) id
  refine ⟨⟨hguarantee.listed h.holder nofun (by simp) (Nat.le_refl _), ?_, ?_, ?_, ?_, h.permit⟩,
    _, hguarantee⟩
  · refine h.readers.append ⟨⟨nofun, fun hheld => ?_⟩, nofun, fun hlate => ?_, fun _ => .inl rfl⟩
      fun i r hr => hguarantee.readerOk hr nofun
    · exact absurd (h.holder _ hheld) (Nat.lt_irrefl _)
    · simpa using hlate
  · exact h.revokers.mono fun j pc hpc => hguarantee.revokerOk hpc nofun hpc.waiting
  · simpa [List.countP_append, ReaderPc.alive] using h.activeReaders
  · exact h.writerIntent

/-- A revoker announces itself. -/
theorem announces :
    s.Moves { s with
      writerIntent := s.writerIntent + 1
      revokers := s.revokers ++ [.announced] } := by
  have hguarantee : Guarantee none s { s with
      writerIntent := s.writerIntent + 1
      revokers := s.revokers ++ [.announced] } :=
    .of_handover (.inl rfl) (.inl rfl) (fun _ => Nat.le_refl _) fun _ => by simp
  refine ⟨⟨hguarantee.listed h.holder nofun (Nat.le_refl _) (by simp), ?_, ?_, ?_, ?_, h.permit⟩,
    _, hguarantee⟩
  · exact h.readers.mono fun i r hr => hguarantee.readerOk hr nofun
  · refine h.revokers.append ⟨⟨nofun, fun hheld => ?_⟩, nofun, nofun, nofun, nofun⟩
      fun j pc hpc => hguarantee.revokerOk hpc nofun hpc.waiting
    exact absurd (h.holder _ hheld) (Nat.lt_irrefl _)
  · exact h.activeReaders
  · simpa [List.countP_append, RevokerPc.isOpen] using h.writerIntent

/-- Everything that happens keeps what everyone relies on. -/
theorem next {a : Action} (hnext : s.next a = some s') : s.Moves s' := by
  cases a with
  | enter =>
    cases hnext
    exact h.enters
  | announce =>
    cases hnext
    exact h.announces
  | reader i =>
    simp only [SessionSync.next] at hnext
    split at hnext
    · next r hi => exact h.readerStep hi hnext
    · cases hnext
  | drop i =>
    simp only [SessionSync.next] at hnext
    split at hnext
    · next r hi =>
      have hlate := (h.readers i r hi).late
      obtain ⟨pc, late⟩ := r
      split at hnext
      · next hpc =>
        cases hpc
        obtain ⟨hfree, rfl⟩ := lock_map_eq_some.mp hnext
        exact h.readerSteps hi (.inr (.inl ⟨hfree, rfl⟩)) rfl
          (.early ⟨fun _ => rfl, fun _ => rfl⟩ nofun fun hl => by simpa using hlate hl)
      · cases hnext
    · cases hnext
  | revoker j =>
    simp only [SessionSync.next] at hnext
    split at hnext
    · next pc hj => exact h.revokerStep hj hnext
    · cases hnext
  | commitAfterAck | closeIfPending =>
    simp only [SessionSync.next] at hnext
    split at hnext
    · obtain rfl := Option.some.inj hnext
      exact h.permitUsed nofun
    · cases hnext
  | notify =>
    simp only [SessionSync.next] at hnext
    split at hnext
    · next hpermit =>
      cases hnext
      refine h.outside (.of_handover (.inl rfl) (.inl rfl) (fun _ => Nat.le_refl _) ?_) rfl
        (.inr rfl) rfl rfl fun hpending => ?_
      · exact fun hsome hnone => hsome (List.map_eq_nil_iff.mp hnone)
      · exact nomatch hpermit.symm.trans (h.permit hpending)
    · cases hnext
  | poison =>
    simp only [SessionSync.next] at hnext
    split at hnext
    · cases hnext
      exact h.outside (.of_handover (.inl rfl) (.inl rfl) (fun _ => Nat.le_refl _) id) rfl
        (.inl rfl) rfl rfl h.permit
    · cases hnext
  | wake j =>
    simp only [SessionSync.next] at hnext
    split at hnext
    · next pc hj =>
      cases hnext
      have hguarantee : Guarantee none s (s.setRevoker j (wakeRevoker pc)) :=
        .of_handover (.inl rfl) (.inl rfl) (fun _ => Nat.le_refl _) (set_ne_nil j)
      exact h.revokerSteps hj (.inl rfl) (isOpen_wakeRevoker pc).symm
        (hguarantee.revokerOk_wake (h.revokers j pc hj) nofun)
    · cases hnext

/-- Whatever happens, everyone can rely on what they need. -/
theorem run {actions : List Action} (hrun : s.run actions = some s') : s'.Sound := by
  induction actions generalizing s with
  | nil =>
    cases hrun
    exact h
  | cons a actions ih =>
    obtain ⟨t, hnext, hrest⟩ := Option.bind_eq_some_iff.mp hrun
    exact ih (h.next hnext).sound hrest

end

theorem newPending : newPending.Sound :=
  ⟨nofun, .nil, .nil, rfl, rfl, fun _ => rfl⟩

end SessionSync.Sound

end Theyos.MeshRegistry

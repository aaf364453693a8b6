import Theyos.Models.Roster.Store.Rederive

/-!
# The trusted clock only moves forward

The floors on disk never decrease, whichever processes write them and however their writes fail. A
floor that is told to a caller is the one on disk; it is not below the caller's clock, any floor
before it, or any floor the same process failed to write.
-/

namespace Theyos.Roster

open Household Machine Directory FloorLatch Coordinator

/-- The floors that came onto the disk, the latest last. -/
def writtenFloors (events : List FloorEvent) : List UInt64 :=
  events.filterMap fun
    | .wrote floor => some floor
    | _ => none

/-- What an event of the clock says about those before it. -/
def FloorJustified (before : List FloorEvent) : FloorEvent → Prop
  | .wrote floor => ∀ earlier ∈ writtenFloors before, earlier ≤ floor
  | .failed _ _ => True
  | .returned process raw floor => (writtenFloors before).getLast? = some floor ∧ raw ≤ floor ∧
      (∀ earlier ∈ writtenFloors before, earlier ≤ floor) ∧
        (∀ p r earlier, .returned p r earlier ∈ before → earlier ≤ floor) ∧
          ∀ target, .failed process target ∈ before → target ≤ floor

/-- What holds of the clock after the events `base`. -/
structure FloorInvariant (F : Formats) (hhId : HouseholdId) (base : List FloorEvent)
    (s : ClockSide) : Prop where
  grown : base <+: s.events
  justified : Justified FloorJustified s.events
  missing : writtenFloors s.events = [] → s.floor = none
  stored : ∀ floor, (writtenFloors s.events).getLast? = some floor → ∃ bytes,
    s.floor = some bytes ∧ decodeClockFloor F bytes hhId = .ok ⟨1, hhId, floor⟩ ∧ floor ≠ 0
  bounded : ∀ floor, (writtenFloors s.events).getLast? = some floor →
    ∀ earlier ∈ writtenFloors s.events, earlier ≤ floor
  told : ∀ p raw floor, .returned p raw floor ∈ s.events → floor ∈ writtenFloors s.events
  latched : ∀ p target, .failed p target ∈ s.events → target ≤ (s.latch p).peak 0

section

variable {F : Formats} {hhId : HouseholdId} {base : List FloorEvent} {s : ClockSide}
  {env : Circumstances}

variable (latch : FloorLatch) (value : UInt64)

theorem FloorLatch.le_peak : value ≤ latch.peak value := by
  rw [UInt64.le_iff_toNat_le, peak, toNat_max]
  exact Nat.le_max_left _ _

theorem FloorLatch.peak_zero_le : latch.peak 0 ≤ latch.peak value := by
  simp only [UInt64.le_iff_toNat_le, peak, toNat_max]
  exact max_le_max_right _ (Nat.zero_le _)

theorem FloorLatch.peak_recordFailure (target : Option UInt64) :
    latch.peak 0 ≤ (latch.recordFailure target).peak 0 := by
  cases target with
  | none => exact UInt64.le_refl _
  | some t =>
    simp only [UInt64.le_iff_toNat_le, peak, recordFailure, toNat_max, Option.getD_some]
    omega

theorem FloorLatch.target_le_recordFailure (target : UInt64) :
    target ≤ (latch.recordFailure (some target)).peak 0 := by
  simp only [UInt64.le_iff_toNat_le, peak, recordFailure, toNat_max, Option.getD_some]
  omega

theorem FloorLatch.peak_recordSuccess : (latch.recordSuccess value).peak 0 = value := by
  rw [← UInt64.toNat_inj]
  simp [peak, recordSuccess, toNat_max]

theorem writtenFloors_snoc {events : List FloorEvent} {e : FloorEvent}
    (h : ∀ floor, e ≠ .wrote floor) : writtenFloors (events ++ [e]) = writtenFloors events := by
  rw [writtenFloors, List.filterMap_append]
  cases e with
  | wrote floor => exact absurd rfl (h floor)
  | failed | returned => exact List.append_nil _

theorem writtenFloors_wrote (events : List FloorEvent) (floor : UInt64) :
    writtenFloors (events ++ [.wrote floor]) = writtenFloors events ++ [floor] := by
  rw [writtenFloors, List.filterMap_append]
  rfl

namespace FloorInvariant

variable (h : FloorInvariant F hhId base s)

include h

/-- A process may remember more. -/
theorem setLatch {p : ℕ} {latch : FloorLatch}
    (hlatch : (s.latch p).peak 0 ≤ latch.peak 0) : FloorInvariant F hhId base (s.setLatch p latch) where
  grown := h.grown
  justified := h.justified
  missing := h.missing
  stored := h.stored
  bounded := h.bounded
  told := h.told
  latched := by
    intro q target hmem
    have hold := h.latched q target hmem
    by_cases hq : q = p
    · subst hq
      simp only [ClockSide.setLatch, Function.update_self]
      exact UInt64.le_trans hold hlatch
    · simp only [ClockSide.setLatch, Function.update_of_ne hq]
      exact hold

/-- Something else than a write is recorded. -/
theorem record {e : FloorEvent}
    (hwrote : ∀ floor, e ≠ .wrote floor) (hjustified : FloorJustified s.events e)
    (htold : ∀ p raw floor, e = .returned p raw floor → floor ∈ writtenFloors s.events)
    (hlatched : ∀ p target, e = .failed p target → target ≤ (s.latch p).peak 0) :
    FloorInvariant F hhId base (s.record e) := by
  have hwritten : writtenFloors (s.record e).events = writtenFloors s.events :=
    writtenFloors_snoc hwrote
  refine ⟨h.grown.trans (List.prefix_append _ _), Justified.snoc_iff.mpr ⟨h.justified, hjustified⟩,
    hwritten ▸ h.missing, hwritten ▸ h.stored, hwritten ▸ h.bounded, ?_, ?_⟩
  · rw [hwritten]
    intro p raw floor hmem
    rcases List.mem_append.mp hmem with hmem | hmem
    · exact h.told p raw floor hmem
    · exact htold p raw floor (List.mem_singleton.mp hmem).symm
  · intro p target hmem
    rcases List.mem_append.mp hmem with hmem | hmem
    · exact h.latched p target hmem
    · exact hlatched p target (List.mem_singleton.mp hmem).symm

/-- A floor that is not below the others comes onto the disk. -/
theorem wrote (hF : F.Lawful hhId) {floor : UInt64}
    {bytes : List UInt8} (hwrite : F.writeClockFloor ⟨1, hhId, floor⟩ = .ok bytes)
    (hpositive : floor ≠ 0) (hle : ∀ earlier ∈ writtenFloors s.events, earlier ≤ floor) :
    FloorInvariant F hhId base ({ s with floor := some bytes }.record (.wrote floor)) := by
  have hwritten : writtenFloors (s.events ++ [.wrote floor]) = writtenFloors s.events ++ [floor] :=
    writtenFloors_wrote _ _
  refine ⟨h.grown.trans (List.prefix_append _ _), Justified.snoc_iff.mpr ⟨h.justified, hle⟩,
    ?_, ?_, ?_, ?_, ?_⟩
  · simp [ClockSide.record, hwritten]
  · intro latest hlatest
    simp only [ClockSide.record, hwritten, List.getLast?_concat, Option.some.injEq] at hlatest
    subst hlatest
    refine ⟨bytes, rfl, ?_, hpositive⟩
    simp only [decodeClockFloor, eq_ok_iff]
    exact ⟨⟨1, hhId, floor⟩, hF.clockFloor rfl hwrite, bytes, hwrite, rfl, rfl, rfl, rfl⟩
  · intro latest hlatest earlier hearlier
    simp only [ClockSide.record, hwritten, List.getLast?_concat, Option.some.injEq] at hlatest hearlier
    subst hlatest
    rcases List.mem_append.mp hearlier with hearlier | hearlier
    · exact hle earlier hearlier
    · rw [List.mem_singleton.mp hearlier]
      exact UInt64.le_refl _
  · intro p raw told hmem
    simp only [ClockSide.record, hwritten]
    rcases List.mem_append.mp hmem with hmem | hmem
    · exact List.mem_append_left _ (h.told p raw told hmem)
    · cases List.mem_singleton.mp hmem
  · intro p target hmem
    rcases List.mem_append.mp hmem with hmem | hmem
    · exact h.latched p target hmem
    · cases List.mem_singleton.mp hmem

/-- A reading without a fault gives the floor last written. -/
theorem readClockFloorInner_eq : readClockFloorInner F hhId none s.floor =
    .ok ((writtenFloors s.events).getLast?.map (⟨1, hhId, ·⟩)) := by
  cases hlast : (writtenFloors s.events).getLast? with
  | none =>
    rw [h.missing (List.getLast?_eq_none_iff.mp hlast)]
    rfl
  | some floor =>
    obtain ⟨bytes, hfloor, hdecode, hpositive⟩ := h.stored floor hlast
    rw [hfloor]
    simp only [readClockFloorInner, eq_ok_iff]
    exact ⟨_, hdecode, hpositive, rfl⟩

/-- A reading of the floor on disk gives the floor last written. -/
theorem last_of_readClockFloorInner {fault : Option ReadFault} {o : Option ClockFloorRecordV1}
    (hread : readClockFloorInner F hhId fault s.floor = .ok o) :
    (writtenFloors s.events).getLast? = o.map (·.floorSecs) := by
  cases fault with
  | some fault => cases hread
  | none =>
    cases h.readClockFloorInner_eq.symm.trans hread
    cases (writtenFloors s.events).getLast? <;> rfl

/-- The durable floor is not below any floor written before. -/
theorem le_durableFloor {policy : MissingFloorPolicy}
    {durable : UInt64} (hdurable : durableFloor F hhId env policy s.floor = some durable) :
    ∀ earlier ∈ writtenFloors s.events, earlier ≤ durable := by
  unfold durableFloor at hdurable
  split at hdurable
  · rename_i hread
    cases hdurable
    exact h.bounded _ (h.last_of_readClockFloorInner hread)
  · rename_i hread
    rw [List.getLast?_eq_none_iff.mp (h.last_of_readClockFloorInner hread)]
    exact nofun
  · cases hdurable

end FloorInvariant

theorem unavailable_invariant {α : Type} (target : Option UInt64) (Q : α → ClockSide → Prop) :
    Meets (FloorInvariant F hhId base) (unavailable env target) Q (FloorInvariant F hhId base) := by
  refine .update_bind (fun s hs => ?_) (.throw fun _ hs => hs)
  exact hs.setLatch (peak_recordFailure _ _)

/-- A new floor, written when it is not below the others nor what the process remembers. -/
theorem writeFloor_invariant (hF : F.Lawful hhId) (fate : WriteFate) {floor : UInt64}
    (hpositive : floor ≠ 0) :
    Meets (fun s => FloorInvariant F hhId base s ∧
        (∀ earlier ∈ writtenFloors s.events, earlier ≤ floor) ∧
          (s.latch env.process).peak 0 ≤ floor)
      (writeFloor F hhId env fate floor)
      (fun told s => told = floor ∧ FloorInvariant F hhId base s ∧
        (writtenFloors s.events).getLast? = some floor ∧ (s.latch env.process).peak 0 = floor)
      (FloorInvariant F hhId base) := by
  refine .bind (Q := fun _ s => FloorInvariant F hhId base s ∧
    (writtenFloors s.events).getLast? = some floor ∧ (s.latch env.process).peak 0 ≤ floor) ?_
    fun _ => ?_
  · refine Meets.adapt (Meets.onError (?_ : Meets _ _ _ (FloorInvariant F hhId base))
      fun s hs => ?_) _
    · refine .ofExcept_bind (fun bytes hbytes => ?_) fun _ hs => hs.1
      rw [mapError_eq_ok] at hbytes
      have hlast (s : ClockSide) :
          (writtenFloors ({ s with floor := some bytes }.record (.wrote floor)).events).getLast? =
            some floor := by
        simp only [ClockSide.record, writtenFloors_wrote, List.getLast?_concat]
      cases fate with
      | refused fault => exact .throw fun _ hs => hs.1
      | interrupted stage =>
        exact .update_bind (fun _ hs => hs.1.wrote hF hbytes hpositive hs.2.1) (.throw fun _ hs => hs)
      | landed =>
        exact .update_bind
          (fun s hs => ⟨hs.1.wrote hF hbytes hpositive hs.2.1, hlast s, hs.2.2⟩)
          (.ofExcept (fun _ _ _ hs => hs) fun _ hs => hs.1)
    · refine (hs.setLatch (peak_recordFailure _ _)).record nofun trivial nofun ?_
      rintro p target ⟨⟩
      simp only [ClockSide.setLatch, Function.update_self]
      exact target_le_recordFailure _ _
  · refine .update_bind (M := fun s => FloorInvariant F hhId base s ∧
      (writtenFloors s.events).getLast? = some floor ∧ (s.latch env.process).peak 0 = floor) ?_
      (.pure fun _ hs => ⟨rfl, hs⟩)
    rintro s ⟨hs, hlast, hlatch⟩
    refine ⟨hs.setLatch ?_, hlast, ?_⟩
    · rw [peak_recordSuccess]
      exact hlatch
    · simp only [ClockSide.setLatch, Function.update_self, peak_recordSuccess]

/-- The largest of what is known is a new floor. -/
theorem peak_floor {p : ℕ} {known value : UInt64}
    (hknown : ∀ earlier ∈ writtenFloors s.events, earlier ≤ known) (hvalue : value ≠ 0) :
    (s.latch p).peak (max known value) ≠ 0 ∧ value ≤ (s.latch p).peak (max known value) ∧
      (∀ earlier ∈ writtenFloors s.events, earlier ≤ (s.latch p).peak (max known value)) ∧
        (s.latch p).peak 0 ≤ (s.latch p).peak (max known value) := by
  have hpeak := le_peak (s.latch p) (max known value)
  rw [UInt64.le_iff_toNat_le, toNat_max] at hpeak
  have hle : value ≤ (s.latch p).peak (max known value) := by
    rw [UInt64.le_iff_toNat_le]
    omega
  refine ⟨fun hzero => hvalue ?_, hle, fun earlier hearlier => ?_, peak_zero_le _ _⟩
  · rw [hzero] at hle
    exact UInt64.toNat_inj.mp (Nat.le_zero.mp hle)
  · have hearlier := hknown earlier hearlier
    rw [UInt64.le_iff_toNat_le] at hearlier ⊢
    omega

/-- A written floor may be told to the process that wrote it. -/
theorem FloorInvariant.returned (h : FloorInvariant F hhId base s) {p : ℕ} {raw floor : UInt64}
    (hlast : (writtenFloors s.events).getLast? = some floor) (hraw : raw ≤ floor)
    (hlatch : (s.latch p).peak 0 = floor) :
    FloorInvariant F hhId base (s.record (.returned p raw floor)) := by
  have hbounded := h.bounded floor hlast
  refine h.record nofun ⟨hlast, hraw, hbounded, fun q r earlier hmem => ?_, fun target hmem => ?_⟩
    ?_ nofun
  · exact hbounded earlier (h.told q r earlier hmem)
  · exact hlatch ▸ h.latched p target hmem
  · rintro q r told ⟨⟩
    exact List.mem_of_getLast? hlast

/-- An observed floor is on disk and not below anything known. -/
theorem observeWallFloor_invariant (hF : F.Lawful hhId) (policy : MissingFloorPolicy) :
    Keeps (FloorInvariant F hhId base) (observeWallFloor F hhId env policy) := by
  unfold observeWallFloor
  split
  · exact unavailable_invariant _ _
  · split
    · exact unavailable_invariant _ _
    · rename_i hraw
      split
      · exact unavailable_invariant _ _
      · refine Meets.get_bind fun s hs => ?_
        have hrefuse (target : Option UInt64) : Meets (· = s)
            (unavailable env target : Program FloorUnavailable ClockSide UInt64)
            (fun _ => FloorInvariant F hhId base) (FloorInvariant F hhId base) :=
          (unavailable_invariant _ _).mono (fun _ ht => ht ▸ hs) fun _ _ ht => ht
        dsimp only
        split
        · exact hrefuse _
        · rename_i durable hdurable
          obtain ⟨hpositive, hle, hwritten, hlatch⟩ :=
            peak_floor (hs.le_durableFloor hdurable) hraw
          split
          · exact hrefuse _
          · split
            · exact hrefuse _
            · refine .bind ((writeFloor_invariant hF _ hpositive).mono
                (by rintro t rfl; exact ⟨hs, hwritten, hlatch⟩) fun _ _ ht => ht) fun told => ?_
              rintro t ⟨rfl, ht, hlast, htold⟩
              exact ht.returned hlast hle htold

/-- An advanced floor is on disk and not below the target. -/
theorem advanceFloorTo_invariant (hF : F.Lawful hhId) (target : UInt64) :
    Meets (FloorInvariant F hhId base) (advanceFloorTo F hhId env target)
      (fun _ s => FloorInvariant F hhId base s ∧ ∃ floor ∈ writtenFloors s.events, target ≤ floor)
      (FloorInvariant F hhId base) := by
  unfold advanceFloorTo
  split
  · exact unavailable_invariant _ _
  · rename_i htarget
    refine .get_bind fun s hs => ?_
    split
    · rename_i r hread
      obtain ⟨hpositive, hle, hwritten, hlatch⟩ := peak_floor
        (hs.bounded _ (hs.last_of_readClockFloorInner hread)) htarget
      refine (writeFloor_invariant hF _ hpositive).mono
        (by rintro t rfl; exact ⟨hs, hwritten, hlatch⟩) ?_
      rintro _ t ⟨-, ht, hlast, -⟩
      exact ⟨ht, _, List.mem_of_getLast? hlast, hle⟩
    · exact (unavailable_invariant _ _).mono (fun _ ht => ht ▸ hs) fun _ _ ht => ht

end

/-- The checkpoints in a record. -/
def AcceptedChainRecordV1.checkpoints (r : AcceptedChainRecordV1) : List (List UInt8) :=
  [r.genesisCheckpoint, r.acceptedCheckpoint, r.predecessorCheckpoint,
    r.conflictingCheckpoint].filterMap id

/-- Every checkpoint in a record was issued no later than some floor that came onto the disk. -/
def CoveredBy (F : Formats) (events : List FloorEvent) (r : AcceptedChainRecordV1) : Prop :=
  ∀ raw ∈ r.checkpoints, ∀ c, F.readCheckpoint raw = .ok c →
    ∃ floor ∈ writtenFloors events, c.issuedAt ≤ floor

/-- What holds of a directory after the events `base`. -/
structure DirectoryInvariant (F : Formats) (hhId : HouseholdId) (base : List FloorEvent)
    (d : Directory) : Prop where
  clock : FloorInvariant F hhId base d.clock
  covered : ∀ bytes, d.roster.file = some bytes → ∃ r, r.hhId = hhId ∧
    F.writeChainRecord r = .ok bytes ∧ CoveredBy F d.clock.events r

section

variable {L : Library} {F : Formats} {hhId : HouseholdId} {k : Coordinator L hhId}
  {base : List FloorEvent} {env : Circumstances}

variable {r : AcceptedChainRecordV1}

theorem CoveredBy.mono {events events' : List FloorEvent} (h : CoveredBy F events r)
    (hgrown : events <+: events') : CoveredBy F events' r := by
  intro raw hraw c hc
  obtain ⟨floor, hfloor, hle⟩ := h raw hraw c hc
  exact ⟨floor, (hgrown.filterMap _).subset hfloor, hle⟩

/-- A new record holds checkpoints of the old one and the candidate. -/
theorem mem_buildChainRecord {old : AcceptedChainRecordV1} {state : AcceptedRosterChainState}
    {bytes raw : List UInt8}
    (h : raw ∈ (buildChainRecord hhId old state bytes).checkpoints) :
    raw ∈ old.checkpoints ∨ raw = bytes := by
  simp only [AcceptedChainRecordV1.checkpoints, List.mem_filterMap, List.mem_cons, List.not_mem_nil,
    or_false, id_eq, exists_eq_right] at h ⊢
  cases state <;>
    grind [buildChainRecord, noGenesisRecord, Option.or_eq_some_iff]

theorem buildChainRecord_hhId (old : AcceptedChainRecordV1) (state : AcceptedRosterChainState)
    (bytes : List UInt8) : (buildChainRecord hhId old state bytes).hhId = hhId := by
  cases state <;> rfl

/-- The record on disk is covered by the floors on disk. -/
theorem DirectoryInvariant.coveredBy (hF : F.Lawful hhId) {d : Directory} {bytes : List UInt8}
    (h : DirectoryInvariant F hhId base d) (hfile : d.roster.file = some bytes)
    (hdecode : decodeAcceptedChain F bytes hhId = .ok r) : CoveredBy F d.clock.events r := by
  obtain ⟨hwrite, hhh⟩ := decodeAcceptedChain_eq_ok hdecode
  obtain ⟨r', hhh', hwrite', hcovered⟩ := h.covered bytes hfile
  rwa [hF.chainRecord_inj hhh hhh' hwrite hwrite']

/-- A record that is read is covered by the floors on disk. -/
theorem DirectoryInvariant.read (hF : F.Lawful hhId) {d : Directory}
    (h : DirectoryInvariant F hhId base d)
    (hread : readChainRecordInner F hhId env d.roster.file = .ok (some r)) :
    CoveredBy F d.clock.events r := by
  unfold readChainRecordInner at hread
  split at hread
  · cases hread
  · cases hread
  · rename_i bytes _ hfile
    simp only [mapError_eq_ok, map_eq_ok, Option.some.injEq] at hread
    obtain ⟨_, hdecode, rfl⟩ := hread
    exact h.coveredBy hF hfile hdecode

/-- Work that keeps the clock's invariant keeps the directory's, and what is covered. -/
theorem attempt_onClock_invariant {ε ε' α : Type} {x : Program ε ClockSide α}
    {R : α → ClockSide → Prop} {E : ε' → Directory → Prop} (r : AcceptedChainRecordV1)
    (hx : ∀ base, Meets (FloorInvariant F hhId base) x
      (fun a s => FloorInvariant F hhId base s ∧ R a s) (FloorInvariant F hhId base)) :
    Ends (fun d => DirectoryInvariant F hhId base d ∧ CoveredBy F d.clock.events r)
      (onClock x).attempt
      (fun result d => DirectoryInvariant F hhId base d ∧ CoveredBy F d.clock.events r ∧
        ∀ a, result = .ok a → R a d.clock) E := by
  rintro d ⟨hd, hr⟩
  have hstart : FloorInvariant F hhId d.clock.events d.clock :=
    { hd.clock with grown := List.prefix_refl _ }
  have hrun := hx d.clock.events d.clock hstart
  have hlift {s : ClockSide} (hs : FloorInvariant F hhId d.clock.events s) :
      DirectoryInvariant F hhId base { d with clock := s } ∧ CoveredBy F s.events r := by
    refine ⟨⟨{ hs with grown := hd.clock.grown.trans hs.grown }, fun bytes hfile => ?_⟩,
      hr.mono hs.grown⟩
    obtain ⟨r', hhh, hwrite, hcovered⟩ := hd.covered bytes hfile
    exact ⟨r', hhh, hwrite, hcovered.mono hs.grown⟩
  rw [Program.exec_attempt, onClock, Program.exec_zoom]
  rcases hexec : x.exec d.clock with ⟨e | a, s⟩
  · rw [hexec] at hrun
    exact ⟨(hlift hrun).1, (hlift hrun).2, nofun⟩
  · rw [hexec] at hrun
    refine ⟨(hlift hrun.1).1, (hlift hrun.1).2, fun b hb => ?_⟩
    cases hb
    exact hrun.2

/-- What a call looks up is covered. -/
theorem Coordinator.observe_invariant (hF : F.Lawful hhId) :
    Meets (DirectoryInvariant F hhId base) (k.observe F env)
      (fun observed d => DirectoryInvariant F hhId base d ∧
        ∀ seen, observed = some seen → CoveredBy F d.clock.events seen.record)
      (DirectoryInvariant F hhId base) := by
  refine .get_bind fun d hd => ?_
  refine .ofExcept_bind (fun chain hchain => ?_) fun _ hs => hs ▸ hd
  refine .ofExcept_bind (fun chainRec hrec => ?_) fun _ hs => hs ▸ hd
  obtain rfl := okOr_eq_ok.mp hrec
  refine .bind ((attempt_onClock_invariant chainRec fun _ =>
    (observeWallFloor_invariant hF _).mono (fun _ hs => hs) fun _ _ hs => ⟨hs, trivial⟩).mono
      (by rintro t rfl; exact ⟨hd, hd.read hF hchain⟩) (fun _ _ hd => hd) fun _ _ hd => hd)
    fun observed => ?_
  cases observed with
  | error => exact .pure fun d' hd' => ⟨hd'.1, fun seen hseen => by cases hseen⟩
  | ok floor =>
    refine .ofExcept_bind (fun derived _ => ?_) fun _ hd' => hd'.1
    refine .pure fun d' hd' => ⟨hd'.1, fun seen hseen => ?_⟩
    cases hseen
    exact hd'.2.1

/-- A covered record may be stored. -/
theorem Coordinator.commitChainRecord_invariant (hhh : r.hhId = hhId)
    (state : AcceptedRosterChainState) :
    Meets (fun d => DirectoryInvariant F hhId base d ∧ CoveredBy F d.clock.events r)
      (onRoster (k.commitChainRecord F env r state)) (fun _ => DirectoryInvariant F hhId base)
      (DirectoryInvariant F hhId base) := by
  refine .zoom fun d hd => ?_
  have hkeep {roster : ChainSide} (hfile : roster.file = d.roster.file) :
      DirectoryInvariant F hhId base { d with roster := roster } :=
    ⟨hd.1.clock, hfile ▸ hd.1.covered⟩
  refine .ofExcept_bind (fun bytes hbytes => ?_) fun s hs => hkeep (congrArg _ hs)
  rw [mapError_eq_ok] at hbytes
  have hput : DirectoryInvariant F hhId base
      { d with roster := { d.roster with file := some bytes }.record (.committed state) } := by
    refine ⟨hd.1.clock, fun bytes' hfile => ?_⟩
    cases Option.some.inj hfile
    exact ⟨r, hhh, hbytes, hd.2⟩
  cases env.chainFate with
  | refused fault => exact .throw fun s hs => hkeep (congrArg _ hs)
  | interrupted stage =>
    exact .update_bind
      (by rintro s rfl; exact hput) (.throw fun _ hs => hs)
  | landed =>
    exact .update_bind
      (by rintro s rfl; exact hput) (.ofExcept (fun _ _ _ hs => hs) fun _ hs => hs)

/-- The floor is raised before a record is stored. -/
theorem Coordinator.store_invariant (hF : F.Lawful hhId) {seen : Coordinator.Observation}
    {bytes : List UInt8} {candidate : CanonicalCheckpoint}
    (hread : CanonicalCheckpoint.fromRaw F bytes = .ok candidate)
    (out : AdmissionOutcome) :
    Meets (fun d => DirectoryInvariant F hhId base d ∧ CoveredBy F d.clock.events seen.record)
      (k.store F env seen bytes candidate out) (fun _ => DirectoryInvariant F hhId base)
      (DirectoryInvariant F hhId base) := by
  refine .bind (Q := fun _ d => DirectoryInvariant F hhId base d ∧
    CoveredBy F d.clock.events seen.record) ?_ fun _ => ?_
  · exact fun d hd => ⟨⟨hd.1.clock, hd.1.covered⟩, hd.2⟩
  · refine .bind (attempt_onClock_invariant seen.record fun _ => advanceFloorTo_invariant hF _)
      fun advanced => ?_
    cases advanced with
    | error => exact .pure fun _ hd => hd.1
    | ok floor =>
      refine .bind
        ((commitChainRecord_invariant (buildChainRecord_hhId _ _ _) _).mono ?_ fun _ _ hd => hd)
        fun _ => .pure fun _ hd => hd
      rintro d ⟨hd, hcovered, hraised⟩
      refine ⟨hd, fun raw hraw c hc => ?_⟩
      rcases mem_buildChainRecord hraw with hraw | rfl
      · exact hcovered raw hraw c hc
      · obtain ⟨floor, hfloor, hle⟩ := hraised _ rfl
        cases hc.symm.trans (CanonicalCheckpoint.fromRaw_eq_ok hread)
        refine ⟨floor, hfloor, ?_⟩
        rw [UInt64.le_iff_toNat_le, toNat_max] at hle
        rw [UInt64.le_iff_toNat_le]
        omega

/-- Every call keeps the directory's invariant. -/
theorem Call.perform_invariant (hF : F.Lawful hhId) (call : Call) :
    Keeps (DirectoryInvariant F hhId base) (call.perform F k env) := by
  have hobserve := @observe_invariant L F hhId k base env hF
  cases call with
  | provision =>
    refine .get_bind fun d hd => ?_
    refine .ofExcept_bind fun chain _ => .ofExcept_bind fun _ _ => ?_
    split
    · exact .throw _
    · exact .throw _
    · exact .throw _
    · exact (commitChainRecord_invariant rfl _).mono (fun d' hd' => ⟨hd', nofun⟩)
        fun _ _ hd' => hd'
  | offer bytes =>
    refine Meets.bind (Meets.bind hobserve fun observed => ?_) fun _ => .pure fun _ hd => hd
    cases observed with
    | none => exact .pure fun _ hd => hd.1
    | some seen =>
      simp only
      split
      · exact .pure fun _ hd => hd.1
      · split
        · exact .pure fun _ hd => hd.1
        · rename_i candidate hread
          split
          · exact (store_invariant hF hread _).mono
              (fun _ hd => ⟨hd.1, hd.2 seen rfl⟩) fun _ _ hd => hd
          · exact .pure fun _ hd => hd.1
  | currency mId | snapshot =>
    refine Meets.bind (Meets.bind hobserve fun observed => ?_) fun _ => .pure fun _ hd => hd
    cases observed <;> exact .pure fun _ hd => hd.1
  | evidence mId =>
    refine Meets.bind (Meets.bind hobserve fun observed => ?_) fun _ => .pure fun _ hd => hd
    cases observed with
    | none => exact .pure fun _ hd => hd.1
    | some seen =>
      simp only
      split <;> exact .pure fun _ hd => hd.1

theorem Directory.foldl_invariant (hF : F.Lawful hhId) (ks : ℕ → Coordinator L hhId)
    (ops : List (Circumstances × Call)) {d : Directory} (h : DirectoryInvariant F hhId base d) :
    DirectoryInvariant F hhId base (ops.foldl (step F ks) d) := by
  refine List.foldlRecOn ops _ h fun d h op _ => ?_
  have hstep := (@Call.perform_invariant L F hhId (ks op.1.process) base op.1 hF op.2).exec h
  unfold step
  rcases hexec : (op.2.perform F (ks op.1.process) op.1).exec d with ⟨_ | _, _⟩ <;>
  · rw [hexec] at hstep
    exact ⟨hstep.clock, hstep.covered⟩

theorem Directory.run_append (ks : ℕ → Coordinator L hhId) (ops more : List (Circumstances × Call)) :
    run F ks (ops ++ more) = more.foldl (step F ks) (run F ks ops) :=
  List.foldl_append

end

/-- The floor on disk. -/
def Directory.floor (F : Formats) (hhId : HouseholdId) (d : Directory) : Option UInt64 :=
  match readClockFloorInner F hhId none d.clock.floor with
  | .ok (some r) => some r.floorSecs
  | _ => none

section

variable {F : Formats} {hhId : HouseholdId} {base : List FloorEvent} {d : Directory}

theorem DirectoryInvariant.floor_eq (h : DirectoryInvariant F hhId base d) :
    d.floor F hhId = (writtenFloors d.clock.events).getLast? := by
  unfold floor
  rw [h.clock.readClockFloorInner_eq]
  cases (writtenFloors d.clock.events).getLast? <;> rfl

/-- Once a floor is written the one on disk is not below it. -/
theorem DirectoryInvariant.floor_of_mem (h : DirectoryInvariant F hhId base d) {floor : UInt64}
    (hmem : floor ∈ writtenFloors d.clock.events) :
    ∃ later, d.floor F hhId = some later ∧ floor ≤ later := by
  obtain ⟨later, hlast⟩ := Option.ne_none_iff_exists'.mp
    (mt List.getLast?_eq_none_iff.mp (List.ne_nil_of_mem hmem))
  exact ⟨later, h.floor_eq.trans hlast, h.clock.bounded later hlast floor hmem⟩

end

/-- The clock of a directory after a run of calls. -/
structure TrustedClock {L : Library} (F : Formats) {hhId : HouseholdId}
    (ks : ℕ → Coordinator L hhId) (ops : List (Circumstances × Call)) : Prop where
  /-- The floor on disk is the one written last. -/
  durable : (Directory.run F ks ops).floor F hhId =
    (writtenFloors (Directory.run F ks ops).clock.events).getLast?
  /-- Once there is a floor on disk, it never decreases. -/
  monotone : ∀ more floor, (Directory.run F ks ops).floor F hhId = some floor →
    ∃ later, (Directory.run F ks (ops ++ more)).floor F hhId = some later ∧ floor ≤ later
  /-- Floors are written in order, and a floor that is returned is the one on disk, not below the
  reading, any floor before it, or any floor its process failed to write. -/
  justified : Justified FloorJustified (Directory.run F ks ops).clock.events
  /-- No stored checkpoint was issued after the floor on disk. -/
  covers : ∀ bytes r, (Directory.run F ks ops).roster.file = some bytes →
    decodeAcceptedChain F bytes hhId = .ok r → ∀ raw ∈ r.checkpoints,
      ∀ c, F.readCheckpoint raw = .ok c →
        ∃ floor, (Directory.run F ks ops).floor F hhId = some floor ∧ c.issuedAt ≤ floor

/-- Two processes on one directory; one of them cannot sync the floor it writes. -/
def smallClockCalls : List (Circumstances × Call) :=
  [(smallEnv 100, .provision), (smallEnv 100, .offer (smallBytes smallGenesis)),
   ({ smallEnv 120 with process := 1, floorFate := .interrupted .syncParent }, .snapshot),
   (smallEnv 110, .snapshot), ({ smallEnv 130 with process := 1 }, .snapshot)]

/-- The trusted clock never moves back. -/
theorem trusted_clock_monotone {L : Library} {F : Formats} {hhId : HouseholdId}
    (hF : F.Lawful hhId) (ks : ℕ → Coordinator L hhId) (ops : List (Circumstances × Call)) :
    TrustedClock F ks ops := by
  have hempty : DirectoryInvariant F hhId [] .empty :=
    ⟨⟨List.prefix_refl _, .nil, fun _ => rfl, nofun, nofun, nofun, nofun⟩, nofun⟩
  have hrun : DirectoryInvariant F hhId [] (run F ks ops) :=
    foldl_invariant hF ks ops hempty
  refine ⟨hrun.floor_eq, fun more floor hfloor => ?_, hrun.clock.justified,
    fun bytes r hfile hdecode raw hraw c hc => ?_⟩
  · have hstart : DirectoryInvariant F hhId (run F ks ops).clock.events (run F ks ops) :=
      ⟨{ hrun.clock with grown := List.prefix_refl _ }, hrun.covered⟩
    have hlater := foldl_invariant hF ks more hstart
    rw [← Directory.run_append] at hlater
    have hmem : floor ∈ writtenFloors (run F ks (ops ++ more)).clock.events := by
      rw [hrun.floor_eq] at hfloor
      exact (hlater.clock.grown.filterMap _).subset (List.mem_of_getLast? hfloor)
    exact hlater.floor_of_mem hmem
  · obtain ⟨floor, hmem, hle⟩ := hrun.coveredBy hF hfile hdecode raw hraw c hc
    obtain ⟨latest, hfloor, hlatest⟩ := hrun.floor_of_mem hmem
    exact ⟨latest, hfloor, UInt64.le_trans hle hlatest⟩

/-- The clock of the process that is behind is refused, and the other one goes on. -/
theorem trusted_clock_monotone_small :
    TrustedClock smallStoreFormats (fun _ => smallStoreCoordinator) smallClockCalls ∧
      (Directory.run smallStoreFormats (fun _ => smallStoreCoordinator)
        smallClockCalls).clock.events =
          [.wrote 100, .returned 0 100 100, .wrote 100, .wrote 120, .failed 1 120, .wrote 130,
            .returned 1 130 130] :=
  ⟨trusted_clock_monotone smallStoreFormats_lawful _ _, by decide +kernel⟩

end Theyos.Roster

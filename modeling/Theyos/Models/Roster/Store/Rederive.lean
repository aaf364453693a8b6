import Theyos.Models.Roster.Chain
import Theyos.Models.Roster.Store.Coordinator
import Theyos.Models.Roster.Store.Reapply

/-!
# The stored roster is derived again

`Describes` says which records stand for which states. Whatever a timely checkpoint brings onto
the disk is derived again as the state it was written for. A checkpoint issued before its owner's
certificate is in force is admitted all the same, and its record is refused for good.
-/

namespace Theyos.Roster

open Household Machine Coordinator

/-- The states written to the disk, the latest last. -/
def committedStates (events : List ChainEvent) : List AcceptedRosterChainState :=
  events.filterMap fun
    | .committed state => some state
    | _ => none

/-- Every checkpoint that changed the state was timely. -/
def AllTimely (L : Library) (events : List ChainEvent) : Prop :=
  ∀ c state, ChainEvent.changed c state ∈ events → Timely L c

/-- An error that finds fault with the stored record. -/
def RosterStoreError.BlamesRecord : RosterStoreError → Prop
  | integrity _ => True
  | readbackMismatch => True
  | _ => False

/-- The records that stand for a state. -/
inductive Describes {L : Library} (F : Formats) {hhId : HouseholdId} (k : Coordinator L hhId) :
    AcceptedChainRecordV1 → AcceptedRosterChainState → Prop
  | noGenesis : Describes F k (Coordinator.noGenesisRecord hhId) .noGenesis
  | accepted {g a p data}
      (h : Established L F k.household k.owner g a p data) :
      Describes F k ⟨1, hhId, .accepted, some g, some a, p, none⟩ (.accepted data)
  | fork {g a c p kind state result}
      (hkeys : checkKeySet F ⟨1, hhId, kind, some g, some a, p, some c⟩ = .ok ())
      (hkind : forkMatches kind (state, result) = true)
      (hfork : rederiveFork L F g a p c kind k.household = .ok (state, k.owner)) :
      Describes F k ⟨1, hhId, kind, some g, some a, p, some c⟩ state

section

variable {L : Library} {F : Formats} {hhId : HouseholdId} {k : Coordinator L hhId}
  {r : AcceptedChainRecordV1} {state : AcceptedRosterChainState}

theorem Established.storedSequence {hhCtx : HistoricalHouseholdContext}
    {binding : HistoricalOwnerBinding} {g a : List UInt8} {p : Option (List UInt8)}
    {data : AcceptedRosterData} (h : Established L F hhCtx binding g a p data) :
    storedSequence F (some a) = .ok data.checkpointSequence := by
  obtain ⟨accepted, hread, hfrontier⟩ := h.frontier
  simp only [Roster.storedSequence, eq_ok_iff]
  exact ⟨a, rfl, accepted.inner, CanonicalCheckpoint.fromRaw_eq_ok hread,
    hfrontier.checkpointSequence.symm⟩

theorem Describes.version (h : Describes F k r state) : r.v = 1 ∧ r.hhId = hhId := by
  cases h <;> exact ⟨rfl, rfl⟩

/-- A record that stands for a state holds what its kind needs. -/
theorem Describes.keys (h : Describes F k r state) : checkKeySet F r = .ok () := by
  cases h with
  | noGenesis => rfl
  | @accepted g a p data h =>
    simp only [checkKeySet, eq_ok_iff]
    exact ⟨⟨rfl, rfl⟩, trivial, _, h.storedSequence, h.predecessor⟩
  | fork hkeys => exact hkeys

/-- The state a record stands for is derived from it. -/
theorem Describes.rederiveCurrentState (h : Describes F k r state) :
    ∃ fp, rederiveCurrentState L F r k.household = .ok (state, fp) := by
  cases h with
  | noGenesis => exact ⟨none, rfl⟩
  | accepted h =>
    refine ⟨some k.owner.certFingerprint, ?_⟩
    simp only [Roster.rederiveCurrentState, eq_ok_iff]
    exact ⟨_, rfl, _, rfl, _, h.derived, rfl⟩
  | @fork g a c p kind state result hkeys hkind hfork =>
    refine ⟨some k.owner.certFingerprint, ?_⟩
    cases kind with
    | noGenesis | accepted => cases hkind
    | checkpointForkConflict | eventForkConflict =>
      simp only [Roster.rederiveCurrentState, eq_ok_iff]
      exact ⟨_, rfl, _, rfl, _, rfl, _, hfork, rfl⟩

variable {bytes : List UInt8}

/-- What was written for a state is read back. -/
theorem Describes.decode (hF : F.Lawful hhId) (h : Describes F k r state)
    (hwrite : F.writeChainRecord r = .ok bytes) : decodeAcceptedChain F bytes hhId = .ok r := by
  obtain ⟨hv, rfl⟩ := h.version
  simp only [decodeAcceptedChain, eq_ok_iff]
  exact ⟨r, hF.chainRecord rfl hv h.keys hwrite, hv, h.keys, bytes, hwrite, rfl, rfl, rfl⟩

/-- What was written for a state passes the check of the commit. -/
theorem Describes.validateReadback (hF : F.Lawful hhId) (h : Describes F k r state)
    (hwrite : F.writeChainRecord r = .ok bytes) :
    k.validateReadback F r state bytes = .ok () := by
  have hdecode := h.decode hF hwrite
  simp only [Coordinator.validateReadback, eq_ok_iff]
  refine ⟨r, hdecode, rfl, ?_⟩
  cases h with
  | noGenesis => rfl
  | accepted h =>
    simp only [eq_ok_iff]
    exact ⟨_, rfl, _, rfl, _, h.derived, rfl⟩
  | @fork g a c p kind state result hkeys hkind hfork =>
    cases kind with
    | noGenesis | accepted => cases hkind
    | checkpointForkConflict | eventForkConflict =>
      simp only [eq_ok_iff]
      exact ⟨_, rfl, _, rfl, _, rfl, _, hfork, rfl⟩

/-- The bound fingerprint is the coordinator's own. -/
theorem Coordinator.currentOwnerBinding_eq {fp : Option Digest} {floor : UInt64} {bound : Digest}
    (h : k.currentOwnerBinding fp floor = some bound) : bound = k.owner.certFingerprint := by
  unfold currentOwnerBinding at h
  split at h
  · cases h
  · split at h
    · rename_i hmatch
      rw [← Option.some.inj h]
      exact hmatch.2.2.1
    · cases h

variable {out : AdmissionOutcome}

/-- A fork revealed by a checkpoint after the accepted one is stored with it. -/
theorem Describes.of_fork (kind : ChainStateKind) {g a : List UInt8} {p : Option (List UInt8)}
    {data : AcceptedRosterData} {candidate : CanonicalCheckpoint}
    (h : Established L F k.household k.owner g a p data)
    (hread : CanonicalCheckpoint.fromRaw F bytes = .ok candidate)
    (hjudge : judge L candidate.inner (.accepted data) (histAdmission k.household k.owner
      candidate.inner.issuedAt) = .ok out) (hkind : forkMatches kind out = true)
    (hsame : kind = .checkpointForkConflict → candidate.inner.checkpointSequence =
      data.checkpointSequence) :
    Describes F k ⟨1, hhId, kind, some g, some a, p, some bytes⟩ out.1 := by
  refine .fork ?_ hkind (h.rederiveFork hread hjudge hkind)
  cases kind with
  | noGenesis | accepted => cases hkind
  | checkpointForkConflict =>
    have hstored : storedSequence F (some bytes) = .ok data.checkpointSequence := by
      simp only [storedSequence, eq_ok_iff]
      exact ⟨bytes, rfl, candidate.inner, CanonicalCheckpoint.fromRaw_eq_ok hread, hsame rfl⟩
    simp only [checkKeySet, eq_ok_iff]
    exact ⟨⟨rfl, rfl, rfl⟩, _, h.storedSequence, _, hstored, rfl, h.predecessor⟩
  | eventForkConflict =>
    simp only [checkKeySet, eq_ok_iff]
    exact ⟨⟨rfl, rfl, rfl⟩, _, h.storedSequence, h.predecessor⟩

theorem forkMatches_state {kind : ChainStateKind} (h : forkMatches kind out = true) :
    out.1 ≠ .noGenesis ∧ ∀ data, out.1 ≠ .accepted data := by
  obtain ⟨state, result⟩ := out
  cases state with
  | noGenesis | accepted data => cases kind <;> cases h
  | checkpointForkConflict | eventForkConflict => exact ⟨nofun, nofun⟩

/-- The record built for a change of state stands for the new state. -/
theorem Describes.buildChainRecord (h : Describes F k r state) {candidate : CanonicalCheckpoint}
    {bound : Option Digest} {floor : UInt64}
    (hread : CanonicalCheckpoint.fromRaw F bytes = .ok candidate)
    (hbound : ∀ fp ∈ bound, fp = k.owner.certFingerprint)
    (hgenesis : state = .noGenesis → bound ≠ none)
    (hjudge : judge L candidate.inner state (k.context bound floor) = .ok out)
    (htimely : Timely L candidate.inner) :
    Describes F k (buildChainRecord hhId r out.1 bytes) out.1 := by
  have hcontext (hsome : bound ≠ none) :
      k.context bound floor = histAdmission k.household k.owner floor := by
    obtain ⟨fp, rfl⟩ := Option.ne_none_iff_exists'.mp hsome
    rw [hbound fp rfl]
    rfl
  cases h with
  | noGenesis =>
    rw [hcontext (hgenesis rfl)] at hjudge
    obtain ⟨data, rfl, hrooted⟩ := Rooted.of_judge hread hjudge htimely
    exact .accepted hrooted.established
  | @accepted g a p data h =>
    have hsome : bound ≠ none := by
      rintro rfl
      have hstate := (judge_eq_ok.mp hjudge).1.state
      simp [preclassify, context, AdmissionContext.ownerAuthorityAvailable, eq_ok_iff] at hstate
    rw [hcontext hsome] at hjudge
    have hat : judge L candidate.inner (.accepted data)
        (histAdmission k.household k.owner candidate.inner.issuedAt) = .ok out :=
      judge_at hjudge htimely
    obtain ⟨-, hash, -, hjudged⟩ := judge_eq_ok.mp hat
    cases hjudged with
    | @next _ divergent hfollows hproject hdivergent =>
      cases divergent with
      | some head => exact .of_fork .eventForkConflict h hread hat rfl (by simp)
      | none => exact .accepted (h.next hread hat)
    | same hsame hrivals hproject =>
      exact .of_fork .checkpointForkConflict h hread hat rfl fun _ => hsame
  | fork hkeys hkind hfork =>
    obtain ⟨hne, hnot⟩ := forkMatches_state hkind
    obtain ⟨-, hash, -, hjudged⟩ := judge_eq_ok.mp hjudge
    cases hjudged with
    | genesis => exact absurd rfl hne
    | next | same => exact absurd rfl (hnot _)

end

/-- The stored record stands for the state last committed, and no call found fault with it. -/
structure Sound {L : Library} (F : Formats) {hhId : HouseholdId} (k : Coordinator L hhId)
    (s : ChainSide) : Prop where
  stored : ∀ bytes, s.file = some bytes → ∃ r state, F.writeChainRecord r = .ok bytes ∧
    (committedStates s.events).getLast? = some state ∧ Describes F k r state
  trusted : ∀ e, ChainEvent.raised e ∈ s.events → ¬ e.BlamesRecord

/-- The chain is sound as long as the checkpoints that changed it are timely. -/
def SoundIfTimely {L : Library} (F : Formats) {hhId : HouseholdId} (k : Coordinator L hhId)
    (s : ChainSide) : Prop :=
  AllTimely L s.events → Sound F k s

section

variable {L : Library} {F : Formats} {hhId : HouseholdId} {k : Coordinator L hhId}
  {env : Circumstances}

variable {s : ChainSide} {e : ChainEvent}

theorem allTimely_record (h : AllTimely L (s.record e).events) : AllTimely L s.events :=
  fun c state hmem => h c state (List.mem_append_left _ hmem)

variable {state : AcceptedRosterChainState}

theorem AllTimely.last {c : MachineRosterCheckpointV1}
    (h : AllTimely L (s.record (.changed c state)).events) :
    Timely L c :=
  h c state (List.mem_append_right _ List.mem_cons_self)

theorem committedStates_snoc {events : List ChainEvent} (h : ∀ state, e ≠ .committed state) :
    committedStates (events ++ [e]) = committedStates events := by
  rw [committedStates, List.filterMap_append]
  cases e with
  | committed state => exact absurd rfl (h state)
  | changed | raised => exact List.append_nil _

/-- Recording something else than a commit leaves the stored record as it is. -/
theorem Sound.record (h : Sound F k s) (hcommit : ∀ state, e ≠ .committed state)
    (he : ∀ e', e = .raised e' → ¬ e'.BlamesRecord) :
    Sound F k (s.record e) := by
  refine ⟨fun bytes hfile => ?_, fun e' he' => ?_⟩
  · obtain ⟨r, state, hwrite, hlast, hdescribes⟩ := h.stored bytes hfile
    exact ⟨r, state, hwrite, (congrArg _ (committedStates_snoc hcommit)).trans hlast, hdescribes⟩
  · rcases List.mem_append.mp he' with he' | he'
    · exact h.trusted e' he'
    · exact he e' (List.mem_singleton.mp he').symm

theorem SoundIfTimely.changed (h : SoundIfTimely F k s) (c : MachineRosterCheckpointV1)
    (state : AcceptedRosterChainState) :
    SoundIfTimely F k (s.record (.changed c state)) :=
  fun htimely => (h (allTimely_record htimely)).record nofun nofun

theorem SoundIfTimely.raised (h : SoundIfTimely F k s) {e : RosterStoreError}
    (he : AllTimely L s.events → ¬ e.BlamesRecord) : SoundIfTimely F k (s.record (.raised e)) := by
  intro htimely
  have hbefore := allTimely_record htimely
  refine (h hbefore).record nofun fun e' he' => ?_
  cases he'
  exact he hbefore

/-- A record written for a state it stands for keeps the chain sound. -/
theorem SoundIfTimely.committed (h : SoundIfTimely F k s) {r : AcceptedChainRecordV1}
    {bytes : List UInt8} (hwrite : F.writeChainRecord r = .ok bytes)
    (hdescribes : AllTimely L s.events → Describes F k r state) :
    SoundIfTimely F k ({ s with file := some bytes }.record (.committed state)) := by
  intro htimely
  have hbefore : AllTimely L s.events :=
    fun c state hmem => htimely c state (List.mem_append_left _ hmem)
  refine ⟨fun bytes' hfile => ?_, fun e he => ?_⟩
  · cases Option.some.inj hfile
    refine ⟨r, state, hwrite, ?_, hdescribes hbefore⟩
    rw [ChainSide.record, committedStates, List.filterMap_append]
    exact List.getLast?_concat
  · rcases List.mem_append.mp he with he | he
    · exact (h hbefore).trusted e he
    · cases List.mem_singleton.mp he

theorem WriteFault.not_blamesRecord (fault : WriteFault) : ¬ fault.toError.BlamesRecord := by
  cases fault <;> exact id

/-- A commit of a record for the state it stands for keeps the chain sound and finds no fault. -/
theorem Coordinator.commitChainRecord_sound (hF : F.Lawful hhId) (r : AcceptedChainRecordV1)
    (state : AcceptedRosterChainState) :
    Ends (fun s => SoundIfTimely F k s ∧ (AllTimely L s.events → Describes F k r state))
      (k.commitChainRecord F env r state) (fun _ => SoundIfTimely F k)
      (fun e s => SoundIfTimely F k s ∧ (AllTimely L s.events → ¬ e.BlamesRecord)) := by
  refine Ends.ofExcept_bind (fun canonical hcanonical => ?_) fun e he s hs => ⟨hs.1, fun _ => ?_⟩
  · rw [mapError_eq_ok] at hcanonical
    cases env.chainFate with
    | refused fault => exact .throw fun s hs => ⟨hs.1, fun _ => fault.not_blamesRecord⟩
    | interrupted stage =>
      refine Ends.update_bind (fun s hs => hs.1.committed hcanonical hs.2) ?_
      exact .throw fun s hs => ⟨hs, fun _ => id⟩
    | landed =>
      refine Ends.update_bind (M := fun s => SoundIfTimely F k s ∧
        (AllTimely L s.events → Describes F k r state)) (fun s hs => ⟨hs.1.committed hcanonical hs.2,
          fun htimely => hs.2 (allTimely_record htimely)⟩) ?_
      refine .ofExcept (fun _ _ s hs => hs.1) fun e he s hs => ⟨hs.1, fun htimely => ?_⟩
      rw [(hs.2 htimely).validateReadback hF hcanonical] at he
      cases he
  · cases hwrite : F.writeChainRecord r with
    | ok bytes =>
      rw [hwrite] at he
      cases he
    | error e' =>
      rw [hwrite] at he
      cases he
      exact id

theorem ReadFault.not_blamesRecord (fault : ReadFault) (stage : StoreIoStage)
    (target : StoreTarget) : ¬ (fault.toError stage target).BlamesRecord := by
  cases fault <;> exact id

/-- Work on the clock leaves the chain as it is. -/
theorem attempt_onClock_roster {ε ε' α : Type} (x : Program ε ClockSide α) (I : ChainSide → Prop)
    {E : ε' → Directory → Prop} :
    Ends (fun d => I d.roster) (onClock x).attempt (fun _ d => I d.roster) E :=
  fun _ hd => hd

/-- A stored record is read as the record that stands for the state. -/
theorem readChainRecordInner_sound (hF : F.Lawful hhId) (h : Sound F k s) :
    (∀ r, readChainRecordInner F hhId env s.file = .ok (some r) → ∃ state, Describes F k r state) ∧
      ∀ e, readChainRecordInner F hhId env s.file = .error e → ¬ e.BlamesRecord := by
  unfold readChainRecordInner
  cases env.chainFault with
  | some fault => exact ⟨nofun, fun e he => by cases he; exact fault.not_blamesRecord _ _⟩
  | none =>
    cases hfile : s.file with
    | none => exact ⟨nofun, nofun⟩
    | some bytes =>
      obtain ⟨r, state, hwrite, -, hdescribes⟩ := h.stored bytes hfile
      simp only [hdescribes.decode hF hwrite]
      refine ⟨fun r' hr' => ?_, nofun⟩
      cases hr'
      exact ⟨state, hdescribes⟩

/-- What a call looked up before it judges anything. -/
structure Coordinator.Observation.Sound (F : Formats) (k : Coordinator L hhId)
    (seen : Coordinator.Observation) : Prop where
  describes : Describes F k seen.record seen.state
  bound : ∀ fp ∈ seen.bound, fp = k.owner.certFingerprint

/-- A sound record is read and derived without fault. -/
theorem Coordinator.observe_sound (hF : F.Lawful hhId) :
    Ends (fun d => SoundIfTimely F k d.roster) (k.observe F env)
      (fun observed d => SoundIfTimely F k d.roster ∧ ∀ seen, observed = some seen →
        AllTimely L d.roster.events → seen.Sound F k)
      (fun e d => SoundIfTimely F k d.roster ∧
        (AllTimely L d.roster.events → ¬ e.BlamesRecord)) := by
  refine .get_bind fun d hd => ?_
  refine .ofExcept_bind (fun chain hchain => ?_) fun e he _ hs => ⟨hs ▸ hd, fun htimely => ?_⟩
  · refine .ofExcept_bind (fun chainRec hrec => ?_) fun e he _ hs => ⟨hs ▸ hd, fun _ => ?_⟩
    · obtain rfl := okOr_eq_ok.mp hrec
      have hdescribes (htimely : AllTimely L d.roster.events) :=
        (readChainRecordInner_sound hF (hd htimely)).1 chainRec hchain
      refine .bind (Q := fun _ d' => d'.roster = d.roster) ?_ fun observed => ?_
      · exact (attempt_onClock_roster _ (· = d.roster)).mono (fun _ hd' => congrArg _ hd')
          (fun _ _ hd' => hd') fun _ _ he => he
      cases observed with
      | error =>
        exact .pure fun d' hd' => ⟨hd' ▸ hd, fun seen hseen => by cases hseen⟩
      | ok floor =>
        refine .ofExcept_bind (fun derived hderived => ?_) fun e he d' hd' =>
          ⟨hd' ▸ hd, fun htimely => ?_⟩
        · refine .pure fun d' hd' => ⟨hd' ▸ hd, fun seen hseen htimely => ?_⟩
          obtain ⟨state, hstate⟩ := hdescribes (hd' ▸ htimely)
          obtain ⟨fp, hfp⟩ := hstate.rederiveCurrentState
          rw [hfp] at hderived
          cases hderived
          cases hseen
          exact ⟨hstate, fun fp hfp => currentOwnerBinding_eq hfp⟩
        · obtain ⟨state, hstate⟩ := hdescribes (hd' ▸ htimely)
          obtain ⟨fp, hfp⟩ := hstate.rederiveCurrentState
          rw [hfp] at he
          cases he
    · cases chain with
      | some r => cases he
      | none =>
        cases he
        exact id
  · subst hs
    exact (readChainRecordInner_sound hF (hd htimely)).2 e he

/-- A change by a timely checkpoint is stored without fault. -/
theorem Coordinator.store_sound (hF : F.Lawful hhId) {seen : Coordinator.Observation}
    {bytes : List UInt8} {candidate : CanonicalCheckpoint}
    {out : AdmissionOutcome}
    (hread : CanonicalCheckpoint.fromRaw F bytes = .ok candidate)
    (hgenesis : seen.state = .noGenesis → seen.bound ≠ none)
    (hjudge : judge L candidate.inner seen.state (k.context seen.bound seen.floor) = .ok out) :
    Ends (fun d => SoundIfTimely F k d.roster ∧ (AllTimely L d.roster.events → seen.Sound F k))
      (k.store F env seen bytes candidate out) (fun _ d => SoundIfTimely F k d.roster)
      (fun e d => SoundIfTimely F k d.roster ∧
        (AllTimely L d.roster.events → ¬ e.BlamesRecord)) := by
  refine .bind (Q := fun _ d => SoundIfTimely F k d.roster ∧ (AllTimely L d.roster.events →
    Describes F k (buildChainRecord hhId seen.record out.1 bytes) out.1)) ?_ fun _ => ?_
  · rintro d ⟨hd, hseen⟩
    refine ⟨hd.changed _ _, fun htimely => ?_⟩
    have hobserved := hseen (allTimely_record htimely)
    exact hobserved.describes.buildChainRecord hread hobserved.bound hgenesis hjudge htimely.last
  · refine .bind (attempt_onClock_roster _ fun s => SoundIfTimely F k s ∧ (AllTimely L s.events →
      Describes F k (buildChainRecord hhId seen.record out.1 bytes) out.1)) fun advanced => ?_
    cases advanced with
    | error => exact .pure fun _ hd => hd.1
    | ok floor =>
      refine .bind ?_ fun _ => .pure fun _ hd => hd
      refine .zoom fun d hd => ?_
      exact (commitChainRecord_sound hF _ _).mono (fun _ hs => hs ▸ hd) (fun _ _ hs => hs)
        fun _ _ hs => hs

/-- An admission that changes the state was judged to. -/
theorem judge_of_isMutating {candidate : CanonicalCheckpoint} {ctx : AdmissionContext}
    (h : isMutating state (admitCheckpoint L candidate state ctx).1 (admitCheckpoint
      L candidate state ctx).2 = true) :
    judge L candidate.inner state ctx = .ok (admitCheckpoint L candidate state ctx) := by
  unfold admitCheckpoint at h ⊢
  split
  · assumption
  · rename_i hjudge
    rw [hjudge] at h
    simp [isMutating] at h

/-- Every call leaves the chain sound and finds no fault with it. -/
theorem Call.perform_sound (hF : F.Lawful hhId) (call : Call) :
    Ends (fun d => SoundIfTimely F k d.roster) (call.perform F k env)
      (fun _ d => SoundIfTimely F k d.roster)
      (fun e d => SoundIfTimely F k d.roster ∧
        (AllTimely L d.roster.events → ¬ e.BlamesRecord)) := by
  have hobserve := @observe_sound L F hhId k env hF
  cases call with
  | provision =>
    refine .get_bind fun d hd => ?_
    refine .ofExcept_bind (fun chain hchain => ?_) fun e he _ hs => ⟨hs ▸ hd, fun htimely => ?_⟩
    · refine .ofExcept_bind (fun _ _ => ?_) fun e he _ hs => ⟨hs ▸ hd, fun _ => ?_⟩
      · split
        · exact .throw fun _ hs => ⟨hs ▸ hd, fun _ => id⟩
        · exact .throw fun _ hs => ⟨hs ▸ hd, fun _ => id⟩
        · exact .throw fun _ hs => ⟨hs ▸ hd, fun _ => id⟩
        · refine .zoom fun d' hd' => ?_
          subst hd'
          exact (commitChainRecord_sound hF _ _).mono
            (fun _ hs => hs ▸ ⟨hd, fun _ => .noGenesis⟩) (fun _ _ hs => hs) fun _ _ hs => hs
      · unfold require at he
        split at he
        · cases he
        · cases he
          exact id
    · subst hs
      exact (readChainRecordInner_sound hF (hd htimely)).2 e he
  | offer bytes =>
    refine .bind (.bind hobserve fun observed => ?_) fun _ => .pure fun _ hd => hd
    cases observed with
    | none => exact .pure fun _ hd => hd.1
    | some seen =>
      simp only
      split
      · exact .pure fun _ hd => hd.1
      · rename_i hgenesis
        split
        · exact .pure fun _ hd => hd.1
        · rename_i candidate hread
          split
          · rename_i hmutating
            refine (store_sound hF hread (fun hstate hbound =>
              hgenesis ⟨hstate, hbound⟩) (judge_of_isMutating hmutating)).mono
                (fun _ hd => ⟨hd.1, hd.2 seen rfl⟩) (fun _ _ hd => hd) fun _ _ hd => hd
          · exact .pure fun _ hd => hd.1
  | currency mId | snapshot =>
    refine .bind (.bind hobserve fun observed => ?_) fun _ => .pure fun _ hd => hd
    cases observed <;> exact .pure fun _ hd => hd.1
  | evidence mId =>
    refine .bind (.bind hobserve fun observed => ?_) fun _ => .pure fun _ hd => hd
    cases observed with
    | none => exact .pure fun _ hd => hd.1
    | some seen =>
      simp only
      split <;> exact .pure fun _ hd => hd.1

end

section

/-- The canonical bytes of a checkpoint. -/
def smallBytes (c : CanonicalCheckpoint) : List UInt8 :=
  (Schema.checkpoint.toCanonicalVec c.inner).getD []

/-- Files that hold one of a few checkpoints, a small floor, or the place of a record in a list. -/
def smallFormats (checkpoints : List CanonicalCheckpoint) (records : List AcceptedChainRecordV1) :
    Formats where
  readCheckpoint raw :=
    match checkpoints.find? fun c => smallBytes c = raw with
    | some c => .ok c.inner
    | none => .error (.cbor "")
  writeClockFloor r :=
    if r = ⟨1, smallHousehold, r.floorSecs.toUInt8.toUInt64⟩ then .ok [r.floorSecs.toUInt8]
    else .error (.cbor "")
  readClockFloor
    | [n] => .ok ⟨1, smallHousehold, n.toUInt64⟩
    | _ => .error .nonCanonicalRecord
  writeChainRecord r :=
    match records.findIdx? (· = r) with
    | some i => .ok (List.replicate i 0)
    | none => .error (.cbor "")
  readChainRecord bytes :=
    match records[bytes.length]? with
    | some r => .ok r
    | none => .error .nonCanonicalRecord

theorem smallFormats_lawful (checkpoints : List CanonicalCheckpoint)
    (records : List AcceptedChainRecordV1) :
    (smallFormats checkpoints records).Lawful smallHousehold := by
  have hplace {r : AcceptedChainRecordV1} {bytes : List UInt8}
      (h : (smallFormats checkpoints records).writeChainRecord r = .ok bytes) :
      records[bytes.length]? = some r := by
    simp only [smallFormats] at h
    split at h
    · rename_i i hi
      cases h
      obtain ⟨hlt, hr, -⟩ := List.findIdx?_eq_some_iff_getElem.mp hi
      rw [List.length_replicate, List.getElem?_eq_getElem hlt]
      exact congrArg some (of_decide_eq_true hr)
    · cases h
  refine ⟨fun {r bytes} _ h => ?_, fun _ _ _ h => ?_, fun _ _ h h' => ?_⟩
  · simp only [smallFormats] at h ⊢
    split at h
    · rename_i hr
      cases h
      exact congrArg _ hr.symm
    · cases h
  · simp only [smallFormats] at h ⊢
    rw [hplace h]
  · exact Option.some.inj ((hplace h).symm.trans (hplace h'))

/-- The owner whose certificate is in force from a given second on. -/
def smallBinding (notBefore : UInt8) : HistoricalOwnerBinding :=
  ⟨⟨"p_owner"⟩, smallKey 0, smallLibrary.sha256 [notBefore]⟩

/-- A coordinator for that owner. -/
def smallCoordinator (notBefore : UInt8)
    (h : deriveOwnerBindingFromCert smallLibrary [notBefore] smallHousehold (smallKey 0) 255 =
      .ok (smallBinding notBefore)) : Coordinator smallLibrary smallHousehold :=
  ⟨smallKey 0, smallBinding notBefore, [notBefore], 255, h⟩

/-- A call in which nothing goes wrong, at a given second. -/
def smallEnv (now : UInt64) : Circumstances :=
  ⟨0, some now, none, none, none, .landed, .landed, .landed⟩

/-- The records of a chain of one and of two checkpoints. -/
def smallRecords (first second : CanonicalCheckpoint) : List AcceptedChainRecordV1 :=
  [Coordinator.noGenesisRecord smallHousehold,
   ⟨1, smallHousehold, .accepted, some (smallBytes first), some (smallBytes first), none, none⟩,
   ⟨1, smallHousehold, .accepted, some (smallBytes first), some (smallBytes second),
     some (smallBytes first), none⟩]

/-- Files for a chain of two checkpoints. -/
def smallStoreFormats : Formats :=
  smallFormats [smallGenesis, smallSecond] (smallRecords smallGenesis smallSecond)

theorem smallStoreFormats_lawful : smallStoreFormats.Lawful smallHousehold :=
  smallFormats_lawful _ _

/-- A coordinator whose owner's certificate is always in force. -/
def smallStoreCoordinator : Coordinator smallLibrary smallHousehold :=
  smallCoordinator 0 (by decide +kernel)

/-- Two checkpoints are offered to a new roster. -/
def smallStoreCalls : List (Circumstances × Call) :=
  [(smallEnv 100, .provision), (smallEnv 100, .offer (smallBytes smallGenesis)),
   (smallEnv 101, .snapshot), (smallEnv 102, .offer (smallBytes smallSecond)),
   (smallEnv 103, .snapshot)]

/-- The first checkpoint of an owner whose certificate is in force only later. -/
def earlyGenesis : CanonicalCheckpoint :=
  smallCheckpoint 150 1 zeroDigest 100 [smallMember 1, smallMember 2] []

/-- Files for that checkpoint. -/
def earlyFormats : Formats :=
  smallFormats [earlyGenesis] (smallRecords earlyGenesis earlyGenesis)

/-- A coordinator for that owner. -/
def earlyCoordinator : Coordinator smallLibrary smallHousehold :=
  smallCoordinator 150 (by decide +kernel)

/-- The checkpoint is offered when the certificate is in force. -/
def earlyCalls : List (Circumstances × Call) :=
  [(smallEnv 160, .provision), (smallEnv 160, .offer (smallBytes earlyGenesis)),
   (smallEnv 161, .snapshot)]

/-- The error a call failed with. -/
def raisedError : ChainEvent → Option RosterStoreError
  | .raised e => some e
  | _ => none

/-- Only the certificate that is always in force is used. -/
def smallTimely : ChainEvent → Bool
  | .changed c _ => decide (c.ownerPersonCert = [0]) &&
      c.revocations.all (fun rev => rev.ownerPersonCert = [0]) &&
        (checkedAdd c.issuedAt maxFutureSkewSecs).isSome
  | _ => true

theorem timely_of_smallTimely {c : MachineRosterCheckpointV1} {state : AcceptedRosterChainState}
    (h : smallTimely (.changed c state) = true) : Timely smallLibrary c := by
  have hforce : ∀ cert, decodeOwnerCert smallLibrary [0] = .ok cert → ∀ t, cert.InForce t := by
    rintro cert hcert t
    cases hcert
    exact ⟨UInt64.zero_le, nofun⟩
  simp only [smallTimely, Bool.and_eq_true, decide_eq_true_eq, List.all_eq_true] at h
  obtain ⟨⟨howner, hrevs⟩, hroom⟩ := h
  refine ⟨fun cert hcert => hforce cert (howner ▸ hcert) _, fun rev hrev cert hcert => ?_, hroom⟩
  exact hforce cert (hrevs rev hrev ▸ hcert) _

end

/-- What is stored is derived again as the state it was written for, and no call finds fault with
it. -/
structure Rederives {L : Library} (F : Formats) {hhId : HouseholdId} (k : Coordinator L hhId)
    (s : ChainSide) : Prop where
  stored : ∀ bytes, s.file = some bytes → ∃ r state fp, decodeAcceptedChain F bytes hhId = .ok r ∧
    (committedStates s.events).getLast? = some state ∧
      rederiveCurrentState L F r k.household = .ok (state, fp)
  trusted : ∀ e, ChainEvent.raised e ∈ s.events → ¬ e.BlamesRecord

/-- A run of calls keeps the chain sound while the checkpoints that change it are timely. -/
theorem Directory.run_sound {L : Library} {F : Formats} {hhId : HouseholdId}
    (hF : F.Lawful hhId) (k : Coordinator L hhId) (ops : List (Circumstances × Call)) :
    SoundIfTimely F k (Directory.run F (fun _ => k) ops).roster := by
  refine List.foldlRecOn (motive := fun d : Directory => SoundIfTimely F k d.roster) ops _
    (fun _ => ⟨nofun, nofun⟩) fun d hd op _ => ?_
  have hperform := @Call.perform_sound L F hhId k op.1 hF op.2 d hd
  unfold Directory.step
  rcases hexec : (op.2.perform F k op.1).exec d with ⟨e | _, d'⟩
  · rw [hexec] at hperform
    exact hperform.1.raised hperform.2
  · rw [hexec] at hperform
    exact hperform

/-- The stored roster is derived again whenever the checkpoints that changed it were issued while
their owner's certificates were in force. -/
theorem stored_roster_rederives {L : Library} {F : Formats} {hhId : HouseholdId}
    (hF : F.Lawful hhId) (k : Coordinator L hhId) (ops : List (Circumstances × Call))
    (htimely : AllTimely L (Directory.run F (fun _ => k) ops).roster.events) :
    Rederives F k (Directory.run F (fun _ => k) ops).roster := by
  have hsound := Directory.run_sound hF k ops htimely
  refine ⟨fun bytes hfile => ?_, hsound.trusted⟩
  obtain ⟨r, state, hwrite, hlast, hdescribes⟩ := hsound.stored bytes hfile
  obtain ⟨fp, hfp⟩ := hdescribes.rederiveCurrentState
  exact ⟨r, state, fp, hdescribes.decode hF hwrite, hlast, hfp⟩

/-- A chain of two checkpoints is stored and derived again, before and after a snapshot. -/
theorem stored_roster_rederives_small :
    Rederives smallStoreFormats smallStoreCoordinator
        (Directory.run smallStoreFormats (fun _ => smallStoreCoordinator) smallStoreCalls).roster ∧
      (Directory.run smallStoreFormats (fun _ => smallStoreCoordinator)
        smallStoreCalls).roster.file = some [0, 0] := by
  have hfacts : (∀ e ∈ (Directory.run smallStoreFormats (fun _ => smallStoreCoordinator)
      smallStoreCalls).roster.events, smallTimely e = true) ∧
        (Directory.run smallStoreFormats (fun _ => smallStoreCoordinator)
          smallStoreCalls).roster.file = some [0, 0] := by
    decide +kernel
  exact ⟨stored_roster_rederives smallStoreFormats_lawful smallStoreCoordinator smallStoreCalls
    fun c state hmem => timely_of_smallTimely (hfacts.1 (.changed c state) hmem), hfacts.2⟩

/-- The record of a checkpoint issued before its owner's certificate is in force comes onto the
disk, and the commit and the next call refuse it. -/
theorem early_roster_refused :
    ¬ Rederives earlyFormats earlyCoordinator
        (Directory.run earlyFormats (fun _ => earlyCoordinator) earlyCalls).roster ∧
      (Directory.run earlyFormats (fun _ => earlyCoordinator) earlyCalls).roster.file = some [0] ∧
        (Directory.run earlyFormats (fun _ => earlyCoordinator) earlyCalls).roster.events.filterMap
          raisedError = [.integrity .ownerCertificate, .integrity .ownerCertificate] := by
  refine ⟨fun h => h.trusted (.integrity .ownerCertificate) ?_ trivial, ?_⟩ <;>
    decide +kernel

end Theyos.Roster

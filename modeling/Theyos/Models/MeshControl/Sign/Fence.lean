import Theyos.Models.MeshControl.Cell.Activate
import Theyos.Models.MeshControl.Run.Fencing
import Theyos.Models.MeshControl.Sign.World

/-!
# The signing fence

Each phase of a signer guarantees something about the world, and the two locks keep it while the
others move: at the signing primitive the record still agrees with the reading the capability was
sealed from. Under the production policy no signer obtains a capability.
-/

namespace Theyos.MeshControl

open MeshSignerControlRecordV1 Machine SigningWorld

section

variable (H : Hashes) (identity : ControlIdentity) (purpose : PurposeId) {ι : Type}
  (w : SigningWorld ι)

/-- What was read is a live generation of an active record of the run. -/
structure SignerLoad.Sound (l : SignerLoad) : Prop where
  readAt_le : l.readAt ≤ w.history.length
  record_eq : w.recordAt H identity purpose l.readAt = l.record
  active : l.record.authority = .active
  live : liveGeneration l.record l.generation.generation = some l.generation

/-- What was sampled is a revision of the run. -/
structure RosterSample.Sound (machine : String) (sample : RosterSample) : Prop where
  sampledAt_le : sample.sampledAt ≤ w.rosterHistory.length
  revision_eq : (w.rosterAt sample.sampledAt).currencyRevision machine = sample.revision

/-- The capability was sealed from a record of the run, to the roster revision sampled before a
full validation. -/
structure SealedSigner.Sound (s : SealedSigner) : Prop where
  readAt_le : s.readAt ≤ w.history.length
  agrees : Agrees (w.recordAt H identity purpose s.readAt) s.capability
  sampledAt_le : s.sampledAt ≤ s.validatedAt
  validatedAt_le : s.validatedAt ≤ w.rosterHistory.length
  sampled : (w.rosterAt s.sampledAt).currencyRevision s.capability.delegator =
    s.capability.rosterRevisionAtValidation
  /-- The generation passed the full validation for the identity it was read under. -/
  validated : ∃ marker policy verify now,
    validateFullBinding H marker s.capability.validatedGeneration
      (.fromIdentity s.capability.identity) policy (w.rosterAt s.validatedAt).currency verify
      now = .ok ()

/-- The roster is at the revision the capability is sealed to. -/
def SealedSigner.Current (s : SealedSigner) : Prop :=
  w.roster.currencyRevision s.capability.delegator = s.capability.rosterRevisionAtValidation

/-- What a signer's phase guarantees about the world. -/
def SignerPhase.Sound : SignerPhase → Prop
  | .idle => True
  | .read l => l.Sound H identity purpose w
  | .sampled l sample | .confirmed l sample =>
    l.Sound H identity purpose w ∧ sample.Sound w l.generation.delegation.delegatorMId
  | .capable s | .peeked s => s.Sound H identity purpose w
  | .leased s | .guarded s => s.Sound H identity purpose w ∧ s.Current w
  | .compared s =>
    s.Sound H identity purpose w ∧ s.Current w ∧ Agrees (w.record H identity purpose) s.capability
  | .signing s now =>
    s.Sound H identity purpose w ∧ s.Current w ∧
      Agrees (w.record H identity purpose) s.capability ∧
        now < s.capability.validatedGeneration.notAfter

end

/-- The second world continues the first. -/
structure SigningWorld.Extends {ι : Type} (w w' : SigningWorld ι) : Prop where
  history : w.history <+: w'.history
  initialRoster : w'.initialRoster = w.initialRoster
  rosterHistory : w.rosterHistory <+: w'.rosterHistory

variable {ι : Type} {H : Hashes} {identity : ControlIdentity} {purpose : PurposeId}
  {w w' : SigningWorld ι} {l : SignerLoad} {sample : RosterSample} {s : SealedSigner}

/-- A world that continues another has the same records before. -/
theorem SigningWorld.Extends.recordAt {n : ℕ} (h : w.Extends w') (hn : n ≤ w.history.length) :
    w'.recordAt H identity purpose n = w.recordAt H identity purpose n := by
  obtain ⟨later, hlater⟩ := h.history
  rw [SigningWorld.recordAt, ← hlater, List.take_append_of_le_length hn, SigningWorld.recordAt]

/-- A world that continues another has the same rosters before. -/
theorem SigningWorld.Extends.rosterAt {n : ℕ} (h : w.Extends w')
    (hn : n ≤ w.rosterHistory.length) : w'.rosterAt n = w.rosterAt n := by
  obtain ⟨later, hlater⟩ := h.rosterHistory
  rw [SigningWorld.rosterAt, ← hlater, List.take_append_of_le_length hn, h.initialRoster,
    SigningWorld.rosterAt]

theorem SigningWorld.rosterAt_length : w.rosterAt w.rosterHistory.length = w.roster := by
  rw [rosterAt, roster, List.take_length]

theorem SigningWorld.eq_record_of_load {readable : Bool} {r : MeshSignerControlRecordV1}
    (h : w.loadCanonical H identity purpose readable = .exact r) :
    w.record H identity purpose = r := by
  cases readable with
  | false => cases h
  | true => exact LoadOutcome.exact.inj h

/-- What was read stays what was read. -/
theorem SignerLoad.Sound.extend (h : l.Sound H identity purpose w) (he : w.Extends w') :
    l.Sound H identity purpose w' where
  readAt_le := h.readAt_le.trans he.history.length_le
  record_eq := (he.recordAt h.readAt_le).trans h.record_eq
  active := h.active
  live := h.live

/-- What was sampled stays what was sampled. -/
theorem RosterSample.Sound.extend {machine : String} (h : sample.Sound w machine)
    (he : w.Extends w') : sample.Sound w' machine where
  sampledAt_le := h.sampledAt_le.trans he.rosterHistory.length_le
  revision_eq := by
    rw [he.rosterAt h.sampledAt_le]
    exact h.revision_eq

/-- A sealed capability stays sealed. -/
theorem SealedSigner.Sound.extend (h : s.Sound H identity purpose w) (he : w.Extends w') :
    s.Sound H identity purpose w' where
  readAt_le := h.readAt_le.trans he.history.length_le
  agrees := by
    rw [he.recordAt h.readAt_le]
    exact h.agrees
  sampledAt_le := h.sampledAt_le
  validatedAt_le := h.validatedAt_le.trans he.rosterHistory.length_le
  sampled := by
    rw [he.rosterAt (h.sampledAt_le.trans h.validatedAt_le)]
    exact h.sampled
  validated := by
    rw [he.rosterAt h.validatedAt_le]
    exact h.validated

/-- The frame rule of the two locks: a phase keeps its guarantee in a world that continues the
present one, if the record stays while the guard is held and the leased revision stays while a
lease is held. -/
theorem SignerPhase.Sound.frame {p : SignerPhase} (h : p.Sound H identity purpose w)
    (he : w.Extends w') (hguard : p.holdsGuard = true → w'.history = w.history)
    (hlease : ∀ machine, p.leasedMachine = some machine →
      w'.roster.currencyRevision machine = w.roster.currencyRevision machine) :
    p.Sound H identity purpose w' := by
  cases p with
  | idle => trivial
  | read l => exact SignerLoad.Sound.extend h he
  | sampled l sample | confirmed l sample => exact ⟨h.1.extend he, h.2.extend he⟩
  | capable s | peeked s => exact SealedSigner.Sound.extend h he
  | leased s | guarded s => exact ⟨h.1.extend he, (hlease _ rfl).trans h.2⟩
  | compared s =>
    refine ⟨h.1.extend he, (hlease _ rfl).trans h.2.1, ?_⟩
    rw [record, hguard rfl]
    exact h.2.2
  | signing s now =>
    refine ⟨h.1.extend he, (hlease _ rfl).trans h.2.1, ?_, h.2.2.2⟩
    rw [record, hguard rfl]
    exact h.2.2.1

/-- A check leads to a phase that keeps its guarantee if both of its outcomes do. -/
theorem SignerPhase.sound_afterCheck {ε α : Type} {fallback : SignerPhase}
    {next : α → SignerPhase} {x : Except ε α} (hfallback : fallback.Sound H identity purpose w)
    (hnext : ∀ a, x = .ok a → (next a).Sound H identity purpose w) :
    (SignerPhase.afterCheck fallback next x).Sound H identity purpose w := by
  cases x with
  | ok a => exact hnext a rfl
  | error e => exact hfallback

/-- What a successful reading gives. -/
theorem SignerLoad.sound_of_read {readable : Bool} {marker : PurposeMarker}
    {policy : DelegationPolicy} {requestedGeneration : NonZeroU64} {now : UInt64}
    {r : MeshSignerControlRecordV1} {g : GenerationRecord}
    (h : readForSigner (w.loadCanonical H identity purpose readable) marker requestedGeneration
      now = .ok (r, g)) :
    SignerLoad.Sound H identity purpose w ⟨marker, policy, r, g, now, w.history.length⟩ := by
  obtain ⟨hload, hactive, hlive, _⟩ := readForSigner_eq_ok h
  have hnumber : g.generation = requestedGeneration := by
    simpa using List.find?_some hlive
  refine ⟨le_rfl, ?_, hactive, hnumber ▸ hlive⟩
  rw [recordAt, List.take_length]
  exact eq_record_of_load hload

/-- What a successful validation gives. -/
theorem SealedSigner.sound_of_seal {verify : SignatureVerifier} {c : SignerCapability}
    (hl : l.Sound H identity purpose w)
    (hsample : sample.Sound w l.generation.delegation.delegatorMId)
    (h : sealCapability H l.marker l.policy l.record l.generation l.now sample.revision
      w.roster.currency verify = .ok c) :
    SealedSigner.Sound H identity purpose w
      ⟨c, l.readAt, sample.sampledAt, w.rosterHistory.length⟩ := by
  simp only [sealCapability, eq_ok_iff] at h
  obtain ⟨hvalid, hc⟩ := h
  have hagrees : Agrees l.record c := by
    rw [← hc]
    exact ⟨rfl, rfl, hl.active, rfl, hl.live⟩
  subst hc
  refine ⟨hl.readAt_le, hl.record_eq ▸ hagrees, hsample.sampledAt_le, le_rfl,
    hsample.revision_eq, l.marker, l.policy, verify, l.now, ?_⟩
  rw [rosterAt_length]
  exact hvalid

/-- Every step of a signer leads to a phase that keeps its guarantee. -/
theorem SignerPhase.Sound.act {p q : SignerPhase} {action : SignerAction}
    (h : p.Sound H identity purpose w)
    (hact : w.act H identity purpose p action = some q) : q.Sound H identity purpose w := by
  unfold SigningWorld.act at hact
  split at hact <;> cases hact
  case h_1 =>
    exact sound_afterCheck trivial fun _ hread => SignerLoad.sound_of_read hread
  case h_2 l =>
    refine ⟨h, le_rfl, ?_⟩
    rw [rosterAt_length]
  case h_3 => exact sound_afterCheck trivial fun _ _ => h
  case h_4 =>
    exact sound_afterCheck trivial fun _ hseal => SealedSigner.sound_of_seal h.1 h.2 hseal
  case h_5 => exact sound_afterCheck h fun _ _ => h
  case h_6 s =>
    refine sound_afterCheck h fun _ hlease => ⟨h, ?_⟩
    simpa only [SealedSigner.Current, acquireCurrencyLease, require_eq_ok] using hlease
  case h_7 => exact h
  case h_8 s readable =>
    refine sound_afterCheck h.1 fun _ hcompare => ⟨h.1, h.2, ?_⟩
    obtain ⟨r, hload, hagrees⟩ := compareFresh_eq_ok.mp hcompare
    exact eq_record_of_load hload ▸ hagrees
  case h_9 s now =>
    refine sound_afterCheck h.1 fun _ hclock => ⟨h.1, h.2.1, h.2.2, ?_⟩
    simpa only [checkClock, require_eq_ok] using hclock
  case h_10 => exact h.1
  case h_11 => trivial

section

variable [Fintype ι] [DecidableEq ι]

/-- Every step of the world keeps every signer's guarantee. -/
theorem SigningWorld.sound_step {e : SigningEvent ι}
    (h : ∀ i, (w.phase i).Sound H identity purpose w)
    (hstep : w.step H identity purpose e = .ok w') :
    ∀ i, (w'.phase i).Sound H identity purpose w' := by
  cases e with
  | commit x =>
    simp only [step, eq_ok_iff] at hstep
    obtain ⟨hexcluded, rfl⟩ := hstep
    intro i
    refine (h i).frame ⟨List.prefix_append _ _, rfl, List.prefix_refl _⟩ ?_ fun _ _ => rfl
    intro hguard
    rw [hexcluded i] at hguard
    cases hguard
  | rosterChange c =>
    simp only [step, eq_ok_iff] at hstep
    obtain ⟨hexcluded, rfl⟩ := hstep
    intro i
    refine (h i).frame ⟨List.prefix_refl _, rfl, List.prefix_append _ _⟩ (fun _ => rfl) ?_
    intro machine hleased
    simp only [roster, List.foldl_append, List.foldl_cons, List.foldl_nil, Roster.change]
    refine Function.update_of_ne ?_ _ _
    rintro rfl
    exact hexcluded i hleased
  | signer j action =>
    simp only [step, eq_ok_iff] at hstep
    obtain ⟨next, hact, rfl⟩ := hstep
    have hsound : ∀ i, (Function.update w.phase j next i).Sound H identity purpose w :=
      (Function.forall_update_iff w.phase fun _ p => p.Sound H identity purpose w).mpr
        ⟨(h j).act hact, fun i _ => h i⟩
    intro i
    exact (hsound i).frame ⟨List.prefix_refl _, rfl, List.prefix_refl _⟩ (fun _ => rfl)
      fun _ _ => rfl

/-- Every signer's guarantee holds in every run. -/
theorem SigningWorld.sound_run {roster : Roster} {events : List (SigningEvent ι)}
    (hrun : run (step H identity purpose) (init roster) events = w) (i : ι) :
    (w.phase i).Sound H identity purpose w := by
  subst hrun
  have hinit : ∀ i, ((init roster : SigningWorld ι).phase i).Sound H identity purpose
      (init roster : SigningWorld ι) := fun _ => trivial
  exact run_invariant (P := fun w => ∀ i, (w.phase i).Sound H identity purpose w) hinit
    (fun _ _ _ h hstep => sound_step h hstep) events i

/-- A signer that reaches the primitive, in any interleaving, does so while the stored record is
active and holds, live and unchanged, the generation that was validated. Since the record its
capability was loaded from, no revocation and no reactivation took effect. The clock sample taken
under the guard is before the expiry, and the roster is leased at the revision sampled before the
validation. -/
theorem signing_fenced {roster : Roster} {events : List (SigningEvent ι)} {i : ι} {now : UInt64}
    (hrun : run (SigningWorld.step H identity purpose) (.init roster) events = w)
    (hphase : w.phase i = .signing s now) :
    ∃ r, w.recordAt H identity purpose s.readAt = r ∧ Agrees r s.capability ∧
      run (submit H) r (w.history.drop s.readAt) = w.record H identity purpose ∧
      Quiet (submit H) Submission.RaisesEpoch r (w.history.drop s.readAt) ∧
      (w.record H identity purpose).authority = .active ∧
      s.capability.validatedGeneration ∈ (w.record H identity purpose).liveGenerations ∧
      now < s.capability.validatedGeneration.notAfter ∧
      (w.phase i).leasedMachine = some s.capability.delegator ∧
      w.roster.currencyRevision s.capability.delegator =
        (w.rosterAt s.sampledAt).currencyRevision s.capability.delegator ∧
      s.sampledAt ≤ s.validatedAt ∧
      ∃ marker policy verify sampled,
        validateFullBinding H marker s.capability.validatedGeneration (.fromIdentity r.identity)
          policy (w.rosterAt s.validatedAt).currency verify sampled = .ok () := by
  have hsound := sound_run hrun i
  rw [hphase] at hsound
  obtain ⟨hsealed, hcurrent, hagrees, hnow⟩ := hsound
  have hreached : Reached H identity purpose (w.recordAt H identity purpose s.readAt) := ⟨_, rfl⟩
  have hcontinues : run (submit H) (w.recordAt H identity purpose s.readAt)
      (w.history.drop s.readAt) = w.record H identity purpose := by
    rw [record, recordAt, ← run_append, List.take_append_drop]
  have hepoch : (run (submit H) (w.recordAt H identity purpose s.readAt)
      (w.history.drop s.readAt)).epochHighWater =
        (w.recordAt H identity purpose s.readAt).epochHighWater := by
    rw [hcontinues, hagrees.epoch, hsealed.agrees.epoch]
  refine ⟨_, rfl, hsealed.agrees, hcontinues, ?_, hagrees.active, ?_, hnow, ?_, ?_,
    hsealed.sampledAt_le, ?_⟩
  · exact quiet_of_epoch hreached.wellformed (le_of_eq (congrArg _ hepoch))
  · exact List.mem_of_find?_eq_some hagrees.live
  · rw [hphase]
    rfl
  · exact hcurrent.trans hsealed.sampled.symm
  · rw [hsealed.agrees.identity]
    exact hsealed.validated

/-- The step loads capabilities under the production policy only. -/
def SigningEvent.Production : SigningEvent ι → Prop
  | .signer _ (.load _ _ policy _ _) => policy = .production
  | _ => True

/-- The signer holds no capability, and any it is loading is under the production policy. -/
def SignerPhase.Closed : SignerPhase → Prop
  | .idle => True
  | .read l | .sampled l _ | .confirmed l _ => l.policy = .production
  | _ => False

/-- A check leads to a closed phase if both of its outcomes do. -/
theorem SignerPhase.closed_afterCheck {ε α : Type} {next : α → SignerPhase} {x : Except ε α}
    (hnext : ∀ a, x = .ok a → (next a).Closed) :
    (SignerPhase.afterCheck .idle next x).Closed := by
  cases x with
  | ok a => exact hnext a rfl
  | error e => trivial

omit [Fintype ι] [DecidableEq ι] in
/-- A step under the production policy leads to no capability. -/
theorem SignerPhase.Closed.act {p q : SignerPhase} {i : ι} {action : SignerAction}
    (h : p.Closed) (hproduction : (SigningEvent.signer i action).Production)
    (hact : w.act H identity purpose p action = some q) : q.Closed := by
  cases p with
  | idle =>
    cases action <;> cases hact
    exact closed_afterCheck fun _ _ => hproduction
  | read l =>
    cases action <;> cases hact
    exact h
  | sampled l sample =>
    cases action <;> cases hact
    exact closed_afterCheck fun _ _ => h
  | confirmed l sample =>
    cases action <;> cases hact
    refine closed_afterCheck fun c hseal => ?_
    obtain ⟨_, hvalid, _⟩ := bind_eq_ok.mp hseal
    rw [mapError_eq_ok, show l.policy = .production from h] at hvalid
    exact absurd hvalid validateFullBinding_production
  | _ => exact h.elim

/-- Under the production policy no run gives any signer a capability. -/
theorem production_closed {roster : Roster} {events : List (SigningEvent ι)}
    (hevents : ∀ e ∈ events, e.Production)
    (hrun : run (step H identity purpose) (.init roster) events = w) (i : ι) :
    (w.phase i).Closed := by
  subst hrun
  have halong : Along (step H identity purpose) (fun _ e => e.Production)
      (.init roster) events :=
    along_iff.mpr fun before e after he => hevents e (he ▸ List.mem_append_cons_self)
  refine run_invariant_along (P := fun w => ∀ i, (w.phase i).Closed) (fun _ => trivial) ?_
    halong i
  intro w e w' h hproduction hstep j
  cases e with
  | commit x | rosterChange c =>
    simp only [step, eq_ok_iff] at hstep
    obtain ⟨_, rfl⟩ := hstep
    exact h j
  | signer k action =>
    simp only [step, eq_ok_iff] at hstep
    obtain ⟨next, hact, rfl⟩ := hstep
    exact (Function.forall_update_iff w.phase fun _ p => p.Closed).mpr
      ⟨(h k).act hproduction hact, fun j _ => h j⟩ j

end

/-- The first generation is made and becomes current. -/
def firstCommits : List (SigningEvent Bool) :=
  [.commit creation, .commit observation,
    .commit (RecordTransition.activateFromKeyObserved
      ((firstOp (repeatedTxn 1)).token fieldHashes 2) sessionDelegation).submission]

/-- A signer starts to load the first generation under the production policy. -/
def productionSigner : List (SigningEvent Bool) :=
  firstCommits ++
    [.signer true (.load true meshSessionPurpose .production .one 1), .signer true .sampleRoster]

theorem production_closed_productionSigner :
    ∃ w, run (step fieldHashes smallIdentity .meshSession)
        (.init ⟨fun _ => 7, fun _ => .revoked⟩) productionSigner = w ∧
      w.phase true ≠ .idle ∧ (w.phase true).Closed :=
  ⟨_, rfl, by decide +kernel,
    production_closed (by simp [productionSigner, firstCommits, SigningEvent.Production]) rfl true⟩

/-- The capability of the first generation. -/
def firstCapability : SignerCapability where
  identity := smallIdentity
  purpose := .meshSession
  epoch := .one
  validatedGeneration := ⟨.one, sessionDelegation, ⟨firstSlot (repeatedTxn 1), [4], []⟩, 9⟩
  rosterRevisionAtValidation := 7

/-- Two signers load the first generation's capability; a rotation begins and another machine's
entry changes before the second one reaches the primitive. -/
def overlappingSigners : List (SigningEvent Bool) :=
  firstCommits ++
    [.signer false (.load true meshSessionPurpose (.test 9) .one 1),
    .signer true (.load true meshSessionPurpose (.test 9) .one 1),
    .signer true .sampleRoster,
    .rosterChange ⟨"other", 8, .revoked⟩,
    .signer true (.confirm (some ⟨firstSlot (repeatedTxn 1), [4], []⟩)),
    .signer true (.validate fun _ _ _ => true),
    .commit (RecordTransition.intentRecorded (repeatedTxn 2) .routineRotate .file).submission,
    .signer false .sampleRoster,
    .signer true (.peek true), .signer true .lease, .signer true .guard,
    .signer true (.compare true), .signer true (.sampleClock 2)]

/-- The world after the overlapping signers' run. -/
def overlappingWorld : SigningWorld Bool :=
  run (SigningWorld.step fieldHashes smallIdentity .meshSession)
    (.init ⟨fun _ => 7, fun _ => .active [] (Vector.replicate 32 0)⟩) overlappingSigners

theorem signing_fenced_overlappingSigners :
    overlappingWorld.phase true = .signing ⟨firstCapability, 3, 0, 1⟩ 2 ∧
      (overlappingWorld.record fieldHashes smallIdentity .meshSession).pendingOp.isSome ∧
      firstCapability.validatedGeneration ∈
        (overlappingWorld.record fieldHashes smallIdentity .meshSession).liveGenerations := by
  have hphase : overlappingWorld.phase true = .signing ⟨firstCapability, 3, 0, 1⟩ 2 := by
    decide +kernel
  have hrun : run (step fieldHashes smallIdentity .meshSession)
      (.init ⟨fun _ => 7, fun _ => .active [] (Vector.replicate 32 0)⟩) overlappingSigners =
        overlappingWorld := by
    rw [overlappingWorld]
  obtain ⟨_, _, _, _, _, _, hlive, _⟩ := signing_fenced hrun hphase
  exact ⟨hphase, by decide +kernel, hlive⟩

end Theyos.MeshControl

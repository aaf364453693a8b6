import Theyos.Models.Roster.Admission

/-!
# Rosters only grow

Along every run of offered checkpoints the accepted ones are numbered without a gap and linked by
their hashes, the genesis members stay, and the tombstones are only extended, as long as no two of
the revocations offered collide. A revoked machine is never active again.
-/

namespace Theyos.Roster

open Household Machine HashChain

/-- One offer of a checkpoint. -/
abbrev Offer := CanonicalCheckpoint × AdmissionContext

section

variable (L : Library)

/-- The state after some offers. -/
def admitAll (offers : List Offer) : AcceptedRosterChainState :=
  offers.foldl (fun s offer => (admitCheckpoint L offer.1 s offer.2).1) .noGenesis

/-- Every revocation offered. -/
def offeredEvents (offers : List Offer) : List MachineRosterRevocationV1 :=
  offers.flatMap fun offer => offer.1.inner.revocations

/-- The hash tells the revocations of a list apart. -/
def CollisionFree (revs : List MachineRosterRevocationV1) : Prop :=
  Set.InjOn L.sha256 {data | ∃ r ∈ revs, revocationPreimage r = .ok data}

end

variable {L : Library}

theorem admitAll_concat (offers : List Offer) (offer : Offer) :
    admitAll L (offers ++ [offer]) = (admitCheckpoint L offer.1 (admitAll L offers) offer.2).1 := by
  simp [admitAll]

variable {r tombstone : MachineRosterRevocationV1}

variable {s : MachineRosterRevocationV1}

/-- A revocation's preimage is made of its signed part. -/
theorem revocationPreimage_congr (h : r.toRevocationUnsigned = s.toRevocationUnsigned) :
    revocationPreimage r = revocationPreimage s := by
  unfold revocationPreimage checkRevocationSchema
  rw [h]

/-- A revocation's hash covers its signed part. -/
theorem revocationEventHash_congr (h : r.toRevocationUnsigned = s.toRevocationUnsigned) :
    revocationEventHash L r = revocationEventHash L s :=
  congrArg (Except.map L.sha256) (revocationPreimage_congr h)

variable {revs xs ys : List MachineRosterRevocationV1}

/-- Revocations with one hash have one signed part. -/
theorem CollisionFree.unsigned_eq (hfree : CollisionFree L revs) (hr : r ∈ revs) (hs : s ∈ revs)
    {h : Digest} (hrh : HashesTo L r h) (hsh : HashesTo L s h) :
    r.toRevocationUnsigned = s.toRevocationUnsigned := by
  obtain ⟨data, hdata, rfl⟩ := map_eq_ok.mp hrh
  obtain ⟨data', hdata', heq⟩ := map_eq_ok.mp hsh
  have hsame := hfree ⟨r, hr, hdata⟩ ⟨s, hs, hdata'⟩ heq.symm
  exact revocationPreimage_inj hdata (hsame ▸ hdata')

/-- Events with one head have one content. -/
theorem CollisionFree.map_unsigned_eq {w : Digest} (hfree : CollisionFree L revs)
    (hxs : ∀ r ∈ xs, r ∈ revs) (hys : ∀ r ∈ ys, r ∈ revs)
    (hx : Chained (HashesTo L) (·.prevEventHash) zeroDigest xs w)
    (hy : Chained (HashesTo L) (·.prevEventHash) zeroDigest ys w)
    (hlength : xs.length = ys.length) :
    xs.map (·.toRevocationUnsigned) = ys.map (·.toRevocationUnsigned) := by
  refine Chained.map_eq ?_ ?_ hx hy hlength
  · intro r hr s hs h hrh hsh
    exact hfree.unsigned_eq (hxs r hr) (hys s hs) hrh hsh
  · intro r s h
    exact congrArg RevocationUnsigned.prevEventHash h

/-- What holds of every accepted state. -/
structure AcceptedRosterData.WellFormed (L : Library) (d : AcceptedRosterData) : Prop where
  /-- The tombstones are counted. -/
  counted : d.eventSequence.toNat = d.tombstones.length
  /-- The tombstones lead from nothing to the head. -/
  chained : Chained (HashesTo L) (·.prevEventHash) zeroDigest d.tombstones d.eventHeadHash
  /-- The active members are the genesis members, in order, whose identifiers were not revoked. -/
  remaining : d.active = d.genesisBasis.members.filter fun m => m.mId ∉ d.tombstones.map (·.mId)
  /-- No two active members have an identifier, key or fingerprint in common. -/
  distinct : d.active.Pairwise MachineRosterMemberV1.Differs

/-- A later accepted state of the same roster. -/
structure AcceptedRosterData.Extends (L : Library) (d d' : AcceptedRosterData) : Prop where
  epoch : d'.epoch = d.epoch
  genesisBasis : d'.genesisBasis = d.genesisBasis
  ownerCertFingerprint : d'.ownerCertFingerprint = d.ownerCertFingerprint
  le_issuedAt : d.issuedAt ≤ d'.issuedAt
  le_sequence : d.checkpointSequence ≤ d'.checkpointSequence
  /-- The signed contents of the tombstones are only extended. -/
  tombstones : d.tombstones.map (·.toRevocationUnsigned) <+:
    d'.tombstones.map (·.toRevocationUnsigned)
  /-- So are their event hashes. -/
  eventHashes : d.tombstones.map (revocationEventHash L) <+:
    d'.tombstones.map (revocationEventHash L)

/-- Tombstones whose signed contents are extended have their hashes extended. -/
theorem eventHashes_prefix
    (h : xs.map (·.toRevocationUnsigned) <+: ys.map (·.toRevocationUnsigned)) :
    xs.map (revocationEventHash L) <+: ys.map (revocationEventHash L) := by
  have hhash : ∀ zs : List MachineRosterRevocationV1, zs.map (revocationEventHash L) =
      (zs.map (·.toRevocationUnsigned)).map fun u =>
        revocationEventHash L ⟨u, [], Vector.replicate 64 0⟩ := by
    intro zs
    rw [List.map_map]
    exact List.map_congr_left fun _ _ => revocationEventHash_congr rfl
  rw [hhash, hhash]
  exact h.map _

theorem AcceptedRosterData.Extends.refl (d : AcceptedRosterData) : d.Extends L d :=
  ⟨rfl, rfl, rfl, UInt64.le_refl _, UInt64.le_refl _, List.prefix_refl _, List.prefix_refl _⟩

theorem AcceptedRosterData.Extends.trans {d₁ d₂ d₃ : AcceptedRosterData} (h : d₁.Extends L d₂)
    (h' : d₂.Extends L d₃) : d₁.Extends L d₃ where
  epoch := h'.epoch.trans h.epoch
  genesisBasis := h'.genesisBasis.trans h.genesisBasis
  ownerCertFingerprint := h'.ownerCertFingerprint.trans h.ownerCertFingerprint
  le_issuedAt := UInt64.le_trans h.le_issuedAt h'.le_issuedAt
  le_sequence := UInt64.le_trans h.le_sequence h'.le_sequence
  tombstones := h.tombstones.trans h'.tombstones
  eventHashes := h.eventHashes.trans h'.eventHashes

variable {ctx : AdmissionContext} {c : MachineRosterCheckpointV1}

/-- The accepted state a checkpoint projects to. -/
theorem Projection.wellFormed {basis : VerifiedGenesisRoster} (h : Projection L ctx basis c)
    (hash : Digest) (n : UInt64) (head : Digest) :
    (AcceptedRosterData.next c hash n head basis (c.active, c.revocations)).WellFormed L where
  counted := h.counted
  chained := h.chained
  remaining := h.remaining
  distinct := h.distinct

/-- A next checkpoint that does not depart from the accepted events extends them. -/
theorem tombstones_prefix {d : AcceptedRosterData} (hd : d.WellFormed L)
    (hfree : CollisionFree L revs) (hold : ∀ r ∈ d.tombstones, r ∈ revs)
    (hnew : ∀ r ∈ c.revocations, r ∈ revs)
    (hchained : Chained (HashesTo L) (·.prevEventHash) zeroDigest c.revocations c.eventHeadHash)
    (hcounted : c.eventSequence.toNat = c.revocations.length)
    (hdivergent : divergentHead L c d.input = .ok none) :
    d.tombstones.map (·.toRevocationUnsigned) <+: c.revocations.map (·.toRevocationUnsigned) := by
  unfold divergentHead at hdivergent
  split at hdivergent
  · rename_i hsame
    have hhead : c.eventHeadHash = d.eventHeadHash := by
      by_contra hne
      have hne' : ¬ c.eventHeadHash = d.input.eventHeadHash := hne
      rw [if_neg hne'] at hdivergent
      cases hdivergent
    have hlength : d.tombstones.length = c.revocations.length := by
      rw [← hd.counted, ← hcounted, hsame]
      rfl
    rw [hfree.map_unsigned_eq hold hnew (hhead ▸ hd.chained) hchained hlength]
  · simp only [eq_ok_iff] at hdivergent
    obtain ⟨-, -, head, -, hout⟩ := hdivergent
    split at hout
    · rename_i hexact
      have htake : c.revocations.take d.eventSequence.toNat = d.tombstones := hexact.1
      rw [← htake]
      exact (List.take_prefix _ _).map _
    · cases hout

/-- The revocations an accepted state was built from were offered. -/
def Offered (revs : List MachineRosterRevocationV1) : AcceptedRosterChainState → Prop
  | .accepted d => ∀ r ∈ d.tombstones, r ∈ revs
  | _ => True

/-- An accepted state is well formed. -/
def WellFormedState (L : Library) : AcceptedRosterChainState → Prop
  | .accepted d => d.WellFormed L
  | _ => True

/-- A later state of the same roster: an accepted state extends the accepted one before it, and
a fork stays as it is. -/
def Continues (L : Library) : AcceptedRosterChainState → AcceptedRosterChainState → Prop
  | .noGenesis, _ => True
  | .accepted d, .accepted d' => d.Extends L d'
  | .accepted _, .noGenesis => False
  | .accepted _, _ => True
  | s, s' => s' = s

/-- What accepting a checkpoint does: the first one has number one, and each later one has the
number after its predecessor's and names its predecessor's hash. -/
def Accepts (L : Library) (c : MachineRosterCheckpointV1) :
    AcceptedRosterChainState → AcceptedRosterChainState → Prop
  | .noGenesis, .accepted d =>
    d.checkpointSequence = 1 ∧ checkpointHash L c = .ok d.checkpointHash
  | .accepted d, .accepted d' =>
    d'.checkpointSequence.toNat = d.checkpointSequence.toNat + 1 ∧
      d'.prevCheckpointHash = d.checkpointHash ∧ checkpointHash L c = .ok d'.checkpointHash
  | _, _ => False

theorem Continues.refl (s : AcceptedRosterChainState) : Continues L s s := by
  cases s with
  | noGenesis => exact trivial
  | accepted d => exact AcceptedRosterData.Extends.refl d
  | checkpointForkConflict | eventForkConflict => rfl

theorem Continues.trans {s₁ s₂ s₃ : AcceptedRosterChainState} (h : Continues L s₁ s₂)
    (h' : Continues L s₂ s₃) : Continues L s₁ s₃ := by
  cases s₁ with
  | noGenesis => exact trivial
  | accepted d₁ =>
    cases s₂ with
    | noGenesis => exact h.elim
    | accepted d₂ =>
      cases s₃ with
      | noGenesis => exact h'.elim
      | accepted d₃ => exact AcceptedRosterData.Extends.trans h h'
      | checkpointForkConflict | eventForkConflict => exact trivial
    | checkpointForkConflict | eventForkConflict =>
      cases h'
      exact trivial
  | checkpointForkConflict | eventForkConflict =>
    cases h
    exact h'

/-- What every prefix of a run keeps. -/
structure RunInvariant (L : Library) (revs : List MachineRosterRevocationV1)
    (s : AcceptedRosterChainState) : Prop where
  wellFormed : WellFormedState L s
  offered : Offered revs s

section

variable {c : MachineRosterCheckpointV1} {ctx : AdmissionContext} {hash : Digest}
  {s : AcceptedRosterChainState} {out : AdmissionOutcome}
  {revs : List MachineRosterRevocationV1}

variable (h : Judged L ctx c hash s out)

include h

theorem Judged.invariant (hrevs : ∀ r ∈ c.revocations, r ∈ revs) : RunInvariant L revs out.1 := by
  cases h with
  | genesis hproject => exact ⟨hproject.wellFormed _ _ _, hrevs⟩
  | @next _ divergent _ hproject _ =>
    cases divergent with
    | none => exact ⟨hproject.wellFormed _ _ _, hrevs⟩
    | some head => exact ⟨trivial, trivial⟩
  | same => exact ⟨trivial, trivial⟩

theorem Judged.continues (hc : Authorised L ctx s c)
    (hs : WellFormedState L s) (hfree : CollisionFree L revs) (hold : Offered revs s)
    (hnew : ∀ r ∈ c.revocations, r ∈ revs) : Continues L s out.1 := by
  cases h with
  | genesis | same => exact trivial
  | @next d divergent hfollows hproject hdivergent =>
    cases divergent with
    | none =>
      have hstate := hc.state
      have hcontinuity := hc.continuity
      simp only [preclassify, eq_ok_iff] at hstate
      have hevents := tombstones_prefix hs hfree hold hnew hproject.chained hproject.counted
        hdivergent
      have hnext := hfollows.lt
      exact ⟨hstate.1, rfl, require_eq_ok.mp hcontinuity, hfollows.issued,
        UInt64.le_iff_toNat_le.mpr (by simp only [AcceptedRosterData.input] at hnext
                                       simp only [AcceptedRosterData.next]
                                       omega), hevents, eventHashes_prefix hevents⟩
    | some head => exact trivial

theorem Judged.accepts (hc : Authorised L ctx s c)
    (hhash : checkpointHash L c = .ok hash) (hout : out.2 = .accepted) : Accepts L c s out.1 := by
  cases h with
  | genesis =>
    have hstate := hc.state
    simp only [preclassify, eq_ok_iff] at hstate
    exact ⟨hstate.1, hhash⟩
  | @next d divergent hfollows _ _ =>
    cases divergent with
    | none => exact ⟨hfollows.lt.symm, hfollows.linked, hhash⟩
    | some head => cases hout
  | same => cases hout

end

variable {s : AcceptedRosterChainState}

/-- One offer keeps the invariant and continues the roster. -/
theorem RunInvariant.step (h : RunInvariant L revs s) (hfree : CollisionFree L revs)
    (offer : Offer) (hnew : ∀ r ∈ offer.1.inner.revocations, r ∈ revs) :
    RunInvariant L revs (admitCheckpoint L offer.1 s offer.2).1 ∧
      Continues L s (admitCheckpoint L offer.1 s offer.2).1 := by
  rcases admitCheckpoint_cases offer.1 s offer.2 with ⟨hc, hash, -, hjudged⟩ | hsame
  · exact ⟨hjudged.invariant hnew, hjudged.continues hc h.wellFormed hfree h.offered hnew⟩
  · rw [hsame]
    exact ⟨h, .refl s⟩

/-- More offers keep the invariant and continue the roster. -/
theorem admitAll_append (hfree : CollisionFree L revs) (before between : List Offer)
    (h : RunInvariant L revs (admitAll L before)) (hrevs : ∀ r ∈ offeredEvents between, r ∈ revs) :
    RunInvariant L revs (admitAll L (before ++ between)) ∧
      Continues L (admitAll L before) (admitAll L (before ++ between)) := by
  induction between using List.reverseRecOn with
  | nil =>
    rw [List.append_nil]
    exact ⟨h, .refl _⟩
  | append_singleton between offer ih =>
    simp only [offeredEvents, List.flatMap_append, List.mem_append, List.flatMap_singleton] at hrevs
    obtain ⟨hinvariant, hcontinues⟩ := ih fun r hr => hrevs r (.inl hr)
    have hstep := hinvariant.step hfree offer fun r hr => hrevs r (.inr hr)
    rw [← List.append_assoc, admitAll_concat]
    exact ⟨hstep.1, hcontinues.trans hstep.2⟩

/-- Every state of a run keeps the invariant. -/
theorem admitAll_invariant (hfree : CollisionFree L revs) (offers : List Offer)
    (hrevs : ∀ r ∈ offeredEvents offers, r ∈ revs) :
    RunInvariant L revs (admitAll L offers) :=
  (admitAll_append hfree [] offers ⟨trivial, trivial⟩ hrevs).1

/-- A candidate that changes the state is accepted or leaves a fork. -/
theorem Judged.result {hash : Digest} {out : AdmissionOutcome}
    (h : Judged L ctx c hash s out) :
    out.2 = .accepted ∨ out.2 = .checkpointForkConflictRecorded ∨
      out.2 = .eventForkConflictRecorded := by
  cases h with
  | genesis => exact .inl rfl
  | @next _ divergent _ _ _ =>
    cases divergent with
    | none => exact .inl rfl
    | some head => exact .inr (.inr rfl)
  | same => exact .inr (.inl rfl)

theorem admitCurrentAcceptedData_eq_ok {d : AcceptedRosterData}
    (h : admitCurrentAcceptedData s ctx = .ok d) : s = .accepted d := by
  simp only [admitCurrentAcceptedData, eq_ok_iff] at h
  cases s with
  | accepted d' =>
    obtain ⟨-, h⟩ := h
    simp only [eq_ok_iff] at h
    rw [h.2.2]
  | noGenesis | checkpointForkConflict | eventForkConflict => cases h.2

variable {m : MachineId}

/-- A revoked machine has a tombstone. -/
theorem exists_tombstone (h : deriveMachineCurrency s m ctx = .revoked tombstone) :
    ∃ d, s = .accepted d ∧ m ∈ d.tombstones.map (·.mId) := by
  unfold deriveMachineCurrency at h
  split at h
  · cases h
  · rename_i d hd
    refine ⟨d, admitCurrentAcceptedData_eq_ok hd, ?_⟩
    split at h
    · rename_i r hr
      exact List.mem_map.mpr ⟨r, List.mem_of_find?_eq_some hr, by simpa using List.find?_some hr⟩
    · split at h <;> cases h

/-- An active machine has no tombstone. -/
theorem not_mem_tombstones {member : MachineRosterMemberV1}
    (h : deriveMachineCurrency s m ctx = .active member) :
    ∃ d, s = .accepted d ∧ m ∉ d.tombstones.map (·.mId) := by
  unfold deriveMachineCurrency at h
  split at h
  · cases h
  · rename_i d hd
    refine ⟨d, admitCurrentAcceptedData_eq_ok hd, ?_⟩
    split at h
    · cases h
    · rename_i hr
      simpa using hr

/-- A machine revoked in one state is not active in a state that continues it. -/
theorem Continues.not_active {s' : AcceptedRosterChainState} (h : Continues L s s')
    {ctx' : AdmissionContext} (hrevoked : deriveMachineCurrency s m ctx = .revoked tombstone)
    (member : MachineRosterMemberV1) : deriveMachineCurrency s' m ctx' ≠ .active member := by
  intro hactive
  obtain ⟨d, rfl, hm⟩ := exists_tombstone hrevoked
  obtain ⟨d', rfl, hm'⟩ := not_mem_tombstones hactive
  have hids := h.tombstones.map RevocationUnsigned.mId
  rw [List.map_map, List.map_map] at hids
  exact hm' (hids.subset hm)

section

variable (n : UInt8)

/-- A key told by its last byte. -/
def smallKey : P256PublicKey :=
  Vector.ofFn fun i => if i = 0 then 2 else if i = 32 then n else 0

/-- A household. -/
def smallHousehold : HouseholdId := ⟨"hh_small"⟩

variable (notBefore : UInt8)

/-- The certificate of an owner in force from a given second on. -/
def smallOwner : PersonCert where
  version := 1
  certType := "person"
  hhId := smallHousehold
  pId := ⟨"p_owner"⟩
  pPub := smallKey 0
  displayName := "owner"
  caveats := ownerCaveats
  notBefore := notBefore.toUInt64
  notAfter := none
  nonce := List.replicate 16 0
  issuedAt := 255
  issuedBy := .household smallHousehold
  ownerAuthTier := some (.text "strong")
  ownerProvenance := some (.text "ios-secure-enclave-owner")
  signature := Vector.replicate 64 0

/-- The certificate of a machine with a given key. -/
def smallMachine : MachineCert where
  version := 1
  certType := .machine
  hhId := smallHousehold
  mId := ⟨"m_" ++ if n = 1 then "a" else "b"⟩
  mPub := smallKey n
  hostname := "host"
  platform := .macos
  joinedAt := 0
  issuedBy := .household smallHousehold
  caveats := []
  signature := Vector.replicate 64 0

/-- A library that accepts every key and signature and writes a certificate as one byte. -/
def smallLibrary : Library where
  sha256 data := Vector.replicate 32 (data.foldl (fun h b => h * 31 + b) 7)
  isPoint _ := true
  verifySignature _ _ _ := .ok ()
  keyName key := if key.get 32 = 0 then "owner" else if key.get 32 = 1 then "a" else "b"
  personCert := ⟨fun cert => .ok [cert.notBefore.toUInt8], fun
    | [n] => .ok (smallOwner n)
    | _ => .error (.cbor "")⟩
  machineCert := ⟨fun cert => .ok [cert.mPub.get 32], fun
    | [n] => .ok (smallMachine n)
    | _ => .error (.cbor "")⟩
  personCertUnsigned _ := .ok []
  machineCertUnsigned _ := .ok []

/-- A member with a given key. -/
def smallMember : MachineRosterMemberV1 :=
  ⟨(smallMachine n).mId, smallKey n, [n], smallLibrary.sha256 [n]⟩

/-- A revocation of a machine, after the events with a given head. -/
def smallRevocation (sequence : UInt64) (prev : Digest) (signature : UInt8) :
    MachineRosterRevocationV1 where
  v := 1
  kind := revocationKind
  hhId := smallHousehold
  epoch := zeroDigest
  sequence := sequence
  prevEventHash := prev
  mId := (smallMember n).mId
  mPub := (smallMember n).mPub
  machineCertFingerprint := (smallMember n).machineCertFingerprint
  revokedAt := 0
  reason := .lost
  cascade := .machineOnly
  ownerPId := ⟨"p_owner"⟩
  ownerCertFingerprint := smallLibrary.sha256 [0]
  ownerPersonCert := [0]
  signature := Vector.replicate 64 signature

/-- The hash of a revocation. -/
def smallEventHash (r : MachineRosterRevocationV1) : Digest :=
  (revocationEventHash smallLibrary r).toOption.getD zeroDigest

/-- The hash of a checkpoint. -/
def smallHash (c : MachineRosterCheckpointV1) : Digest :=
  (checkpointHash smallLibrary c).toOption.getD zeroDigest

/-- A checkpoint with given members and revocations, signed under an owner's certificate. -/
def smallCheckpoint (sequence : UInt64) (prev : Digest) (issuedAt : UInt64)
    (active : List MachineRosterMemberV1) (revs : List MachineRosterRevocationV1) :
    CanonicalCheckpoint where
  inner := {
    v := 1
    kind := checkpointKind
    hhId := smallHousehold
    epoch := zeroDigest
    checkpointSequence := sequence
    prevCheckpointHash := prev
    eventSequence := .ofNat revs.length
    eventHeadHash := (revs.getLast?.map smallEventHash).getD zeroDigest
    meshLogDigest := zeroDigest
    issuedAt := issuedAt
    notAfter := issuedAt + 200
    ownerPId := ⟨"p_owner"⟩
    ownerCertFingerprint := smallLibrary.sha256 [notBefore]
    active := active
    revocations := revs
    ownerPersonCert := [notBefore]
    signature := Vector.replicate 64 0 }
  schema := ⟨rfl, rfl⟩

/-- The context in which that owner's checkpoints are judged at a given second. -/
def smallContext (now : UInt64) : AdmissionContext where
  authority := ⟨smallKey 0, smallHousehold, ⟨"p_owner"⟩, smallKey 0, now⟩
  clockAvailable := true
  boundOwnerCertFingerprint := some (smallLibrary.sha256 [notBefore])

/-- The first checkpoint, with two members. -/
def smallGenesis : CanonicalCheckpoint :=
  smallCheckpoint 0 1 zeroDigest 100 [smallMember 1, smallMember 2] []

/-- The second checkpoint, which revokes the first member. -/
def smallSecond : CanonicalCheckpoint :=
  smallCheckpoint 0 2 (smallHash smallGenesis.inner) 100 [smallMember 2]
    [smallRevocation 1 1 zeroDigest 0]

/-- The two checkpoints, offered one after the other. -/
def smallOffers : List Offer :=
  [(smallGenesis, smallContext 0 100), (smallSecond, smallContext 0 100)]

end

/-- What a run of offers does to a roster. -/
structure AppendOnly (L : Library) (offers : List Offer) : Prop where
  /-- A result other than an acceptance or a recorded fork leaves the state unchanged. -/
  unchanged : ∀ before offer after, offers = before ++ offer :: after →
    ∀ result, (admitCheckpoint L offer.1 (admitAll L before) offer.2).2 = result →
      result ≠ .accepted → result ≠ .checkpointForkConflictRecorded →
        result ≠ .eventForkConflictRecorded →
          (admitCheckpoint L offer.1 (admitAll L before) offer.2).1 = admitAll L before
  /-- An acceptance takes the next number and links to the previous checkpoint. -/
  accepts : ∀ before offer after, offers = before ++ offer :: after →
    (admitCheckpoint L offer.1 (admitAll L before) offer.2).2 = .accepted →
      Accepts L offer.1.inner (admitAll L before)
        (admitCheckpoint L offer.1 (admitAll L before) offer.2).1
  /-- Every accepted state counts its tombstones, and its members are those not revoked. -/
  wellFormed : ∀ before after, offers = before ++ after → WellFormedState L (admitAll L before)
  /-- Later states extend earlier ones, and forks are final. -/
  continues : ∀ before between after, offers = before ++ between ++ after →
    Continues L (admitAll L before) (admitAll L (before ++ between))
  /-- A machine once revoked is never active again. -/
  revoked : ∀ before between after, offers = before ++ between ++ after →
    ∀ m ctx ctx' tombstone member,
      deriveMachineCurrency (admitAll L before) m ctx = .revoked tombstone →
        deriveMachineCurrency (admitAll L (before ++ between)) m ctx' ≠ .active member

/-- The roster is append-only along every run of offers. -/
theorem roster_append_only (L : Library) (offers : List Offer)
    (hfree : CollisionFree L (offeredEvents offers)) : AppendOnly L offers := by
  have hcontinues : ∀ before between after, offers = before ++ between ++ after →
      Continues L (admitAll L before) (admitAll L (before ++ between)) := by
    rintro before between after rfl
    have hoffered (r) (hr : r ∈ offeredEvents before ∨ r ∈ offeredEvents between) :
        r ∈ offeredEvents (before ++ between ++ after) := by
      simp only [offeredEvents, List.flatMap_append, List.mem_append] at hr ⊢
      exact .inl hr
    have hbefore := admitAll_invariant hfree before fun r hr => hoffered r (.inl hr)
    exact (admitAll_append hfree before between hbefore fun r hr => hoffered r (.inr hr)).2
  refine ⟨?_, ?_, ?_, hcontinues, ?_⟩
  · rintro before offer after - result rfl hne hne' hne''
    rcases admitCheckpoint_cases offer.1 (admitAll L before) offer.2 with
      ⟨-, hash, -, hjudged⟩ | hsame
    · rcases hjudged.result with hresult | hresult | hresult
      · exact absurd hresult hne
      · exact absurd hresult hne'
      · exact absurd hresult hne''
    · exact hsame
  · rintro before offer after - hresult
    unfold admitCheckpoint at hresult ⊢
    split at hresult
    · rename_i out hout
      obtain ⟨hc, hash, hhash, hjudged⟩ := judge_eq_ok.mp hout
      exact hjudged.accepts hc hhash hresult
    · rename_i result herror
      exact absurd (herror.trans (congrArg _ hresult)) (judge_avoids _ _ _)
  · rintro before after rfl
    refine (admitAll_invariant hfree before fun r hr => ?_).wellFormed
    simp only [offeredEvents, List.flatMap_append, List.mem_append] at hr ⊢
    exact .inl hr
  · rintro before between after hoffers m ctx ctx' tombstone member hrevoked
    exact (hcontinues before between after hoffers).not_active hrevoked member

theorem roster_append_only_small :
    AppendOnly smallLibrary smallOffers ∧
      (admitCheckpoint smallLibrary smallSecond
        (admitAll smallLibrary [(smallGenesis, smallContext 0 100)]) (smallContext 0 100)).2 =
          .accepted := by
  refine ⟨roster_append_only smallLibrary smallOffers ?_, by decide +kernel⟩
  rintro data ⟨r, hr, hdata⟩ data' ⟨r', hr', hdata'⟩ -
  rw [List.mem_singleton.mp hr] at hdata
  rw [List.mem_singleton.mp hr'] at hdata'
  exact Except.ok.inj (hdata.symm.trans hdata')

end Theyos.Roster

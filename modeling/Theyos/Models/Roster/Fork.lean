import Theyos.Models.Roster.Chain

/-!
# What a recorded fork proves

A fork names two hashes, as evidence that the owner signed two different histories. Accepted
tombstones are compared as whole values, although a revocation's hash covers its signed part only:
the evidence stands exactly where a recorded fork does not rest on the difference.
-/

namespace Theyos.Roster

open Household Machine HashChain

variable {L : Library} {c : MachineRosterCheckpointV1} {d : AcceptedRosterData}

/-- A checkpoint with more events that repeats the signed parts of the tombstones repeats their
signatures and certificates. -/
def CarriedAlike (d : AcceptedRosterData) (c : MachineRosterCheckpointV1) : Prop :=
  c.eventSequence ≠ d.eventSequence →
    (c.revocations.take d.eventSequence.toNat).map (·.toRevocationUnsigned) =
      d.tombstones.map (·.toRevocationUnsigned) →
    c.revocations.take d.eventSequence.toNat = d.tombstones

/-- A state in which a fork was recorded, with the hashes it names. -/
def forkHashes : AcceptedRosterChainState → Option (List Digest)
  | .checkpointForkConflict _ _ hashes => some hashes
  | .eventForkConflict _ _ hashes => some hashes
  | _ => none

/-- The head at `n` is the head of the first `n` events. -/
theorem headAt_eq_ok {w v : Digest} {n : ℕ}
    (hc : Chained (HashesTo L) (·.prevEventHash) zeroDigest c.revocations w)
    (hn : n ≤ c.revocations.length) (hv : headAt L c n = .ok v) :
    Chained (HashesTo L) (·.prevEventHash) zeroDigest (c.revocations.take n) v := by
  rw [← List.take_append_drop n c.revocations] at hc
  obtain ⟨v', htake, -⟩ := Chained.append_iff.mp hc
  suffices hsame : v' = v by rwa [hsame] at htake
  unfold headAt at hv
  split at hv
  · rename_i hzero
    rw [hzero, List.take_zero, Chained.nil_iff] at htake
    exact htake.symm.trans (Except.ok.inj hv)
  · simp only [eq_ok_iff] at hv
    obtain ⟨last, hlast, hhash⟩ := hv
    have hgetLast : (c.revocations.take n).getLast? = some last := by
      rw [List.getLast?_eq_getElem?, List.length_take, Nat.min_eq_left hn,
        List.getElem?_take_of_lt (by omega), hlast]
    exact Except.ok.inj ((htake.named_getLast hgetLast).symm.trans hhash)

/-- The hash of an event covers its signed part only. -/
theorem hashes_of_unsigned {xs ys : List MachineRosterRevocationV1}
    (h : xs.map (·.toRevocationUnsigned) = ys.map (·.toRevocationUnsigned)) :
    xs.map (revocationEventHash L) = ys.map (revocationEventHash L) := by
  have hash := congrArg (List.map fun u => revocationEventHash L ⟨u, [], .replicate 64 0⟩) h
  rwa [List.map_map, List.map_map] at hash

/-- Events with one list of hashes have one head. -/
theorem head_eq_of_hashes {xs ys : List MachineRosterRevocationV1} {v w : Digest}
    (hx : Chained (HashesTo L) (·.prevEventHash) zeroDigest xs v)
    (hy : Chained (HashesTo L) (·.prevEventHash) zeroDigest ys w)
    (h : xs.map (revocationEventHash L) = ys.map (revocationEventHash L)) : v = w := by
  have hlast := congrArg List.getLast? h
  rw [List.getLast?_map, List.getLast?_map] at hlast
  cases hxl : xs.getLast? with
  | none =>
    cases hyl : ys.getLast? with
    | none =>
      rw [List.getLast?_eq_none_iff] at hxl hyl
      rw [hxl, Chained.nil_iff] at hx
      rw [hyl, Chained.nil_iff] at hy
      exact hx.symm.trans hy
    | some y => simp [hxl, hyl] at hlast
  | some x =>
    cases hyl : ys.getLast? with
    | none => simp [hxl, hyl] at hlast
    | some y =>
      rw [hxl, hyl] at hlast
      have hhash := Option.some.inj hlast
      have hxv : revocationEventHash L x = .ok v := hx.named_getLast hxl
      have hyw : revocationEventHash L y = .ok w := hy.named_getLast hyl
      exact Except.ok.inj (hxv.symm.trans (hhash.trans hyw))

section

variable {revs : List MachineRosterRevocationV1} {head : Digest}
  (hd : d.WellFormed L) (hfree : CollisionFree L revs) (hold : ∀ r ∈ d.tombstones, r ∈ revs)
  (hnew : ∀ r ∈ c.revocations, r ∈ revs)
  (hchained : Chained (HashesTo L) (·.prevEventHash) zeroDigest c.revocations c.eventHeadHash)
  (hcounted : c.eventSequence.toNat = c.revocations.length) (halike : CarriedAlike d c)
  (hdivergent : divergentHead L c d.input = .ok (some head))

include hd hfree hold hnew hchained halike hdivergent

/-- A next checkpoint that departs from the accepted events has another head there. -/
theorem divergentHead_ne : d.eventHeadHash ≠ head := by
  unfold divergentHead at hdivergent
  split at hdivergent
  · have hhead := Except.ok.inj hdivergent
    split at hhead
    · cases hhead
    · rename_i hne
      cases hhead
      exact fun h => hne h.symm
  · rename_i hmore
    simp only [eq_ok_iff] at hdivergent
    obtain ⟨hlength, hle, v, hv, hout⟩ := hdivergent
    split at hout
    · cases hout
    · rename_i hdeparts
      cases hout
      rintro hsame
      have htake := headAt_eq_ok hchained hle hv
      have hunsigned := hfree.map_unsigned_eq hold (fun r hr => hnew r (List.mem_of_mem_take hr))
        hd.chained (hsame ▸ htake) (by rw [List.length_take, Nat.min_eq_left hle]; exact hlength)
      exact hdeparts ⟨halike hmore hunsigned.symm, .inr hsame.symm⟩

include hcounted

/-- A next checkpoint that departs from the accepted events has another hash among them. -/
theorem divergentHead_hashes_ne :
    (c.revocations.take d.eventSequence.toNat).map (revocationEventHash L) ≠
      d.tombstones.map (revocationEventHash L) := by
  intro hhashes
  have hne := divergentHead_ne hd hfree hold hnew hchained halike hdivergent
  unfold divergentHead at hdivergent
  split at hdivergent
  · rename_i hsame
    have htake : c.revocations.take d.eventSequence.toNat = c.revocations := by
      apply List.take_of_length_le
      rw [← hcounted, hsame]
      rfl
    rw [htake] at hhashes
    have hhead := Except.ok.inj hdivergent
    split at hhead
    · cases hhead
    · cases hhead
      exact hne (head_eq_of_hashes hd.chained hchained hhashes.symm)
  · simp only [eq_ok_iff] at hdivergent
    obtain ⟨-, hle, v, hv, hout⟩ := hdivergent
    split at hout
    · cases hout
    · cases hout
      exact hne (head_eq_of_hashes hd.chained (headAt_eq_ok hchained hle hv) hhashes.symm)

end

/-- What a checkpoint offered to an accepted state does to it when forks are evidence: a fork
names two different hashes, and a next checkpoint with the hashes of the accepted tombstones
leaves none. -/
structure ForkEvidence (L : Library) (d : AcceptedRosterData) (c : MachineRosterCheckpointV1)
    (s : AcceptedRosterChainState) : Prop where
  different : ∀ hashes, forkHashes s = some hashes → ∃ a b, hashes = [a, b] ∧ a ≠ b
  sameEvents : c.checkpointSequence.toNat = d.checkpointSequence.toNat + 1 →
    (c.revocations.take d.eventSequence.toNat).map (revocationEventHash L) =
        d.tombstones.map (revocationEventHash L) → forkHashes s = none

theorem Judged.forkEvidence {ctx : AdmissionContext} {hash : Digest}
    {out : AdmissionOutcome}
    {revs : List MachineRosterRevocationV1} (h : Judged L ctx c hash (.accepted d) out)
    (hd : d.WellFormed L) (hfree : CollisionFree L revs) (hold : ∀ r ∈ d.tombstones, r ∈ revs)
    (hnew : ∀ r ∈ c.revocations, r ∈ revs) (halike : forkHashes out.1 ≠ none →
      c.checkpointSequence.toNat = d.checkpointSequence.toNat + 1 → CarriedAlike d c) :
    ForkEvidence L d c out.1 := by
  cases h with
  | @next _ divergent hfollows hproject hdivergent =>
    cases divergent with
    | none => exact ⟨by rintro _ ⟨⟩, fun _ _ => rfl⟩
    | some head =>
      have halike := halike nofun (checkedAdd_one_eq_some.mp hfollows.next)
      refine ⟨fun hashes hhashes => ?_, fun _ hsame => ?_⟩
      · cases hhashes
        exact ⟨_, head, rfl, divergentHead_ne hd hfree hold hnew hproject.chained halike hdivergent⟩
      · exact absurd hsame (divergentHead_hashes_ne hd hfree hold hnew hproject.chained
          hproject.counted halike hdivergent)
  | same hsame hrivals hproject =>
    refine ⟨fun hashes hhashes => ?_, fun hnext _ => ?_⟩
    · cases hhashes
      exact ⟨_, hash, rfl, hrivals.other.symm⟩
    · rw [hsame] at hnext
      omega

section

/-- Hashes tell revocations apart when those with one hash have one preimage. -/
theorem collisionFree_of_preimages {revs : List MachineRosterRevocationV1}
    (h : ∀ r ∈ revs, ∀ s ∈ revs, revocationEventHash L r = revocationEventHash L s →
      revocationPreimage r = revocationPreimage s) : CollisionFree L revs := by
  rintro data ⟨r, hr, hdata⟩ data' ⟨s, hs, hdata'⟩ heq
  have hhash : revocationEventHash L r = revocationEventHash L s := by
    rw [revocationEventHash, hdata, revocationEventHash, hdata']
    exact congrArg Except.ok heq
  exact Except.ok.inj (hdata.symm.trans ((h r hr s hs hhash).trans hdata'))

/-- The state after the first two checkpoints. -/
def smallAccepted : AcceptedRosterData :=
  .next smallSecond.inner (smallHash smallSecond.inner) 0 zeroDigest
    ⟨zeroDigest, [smallMember 1, smallMember 2]⟩
    ([smallMember 2], [smallRevocation 1 1 zeroDigest 0])

theorem admitAll_smallOffers : admitAll smallLibrary smallOffers = .accepted smallAccepted := by
  decide +kernel

/-- The third checkpoint, which repeats the first revocation under a given signature and revokes
the other member. -/
def smallThird (signature : UInt8) : CanonicalCheckpoint :=
  smallCheckpoint 0 3 (smallHash smallSecond.inner) 100 []
    [smallRevocation 1 1 zeroDigest signature,
      smallRevocation 2 2 (smallEventHash (smallRevocation 1 1 zeroDigest 0)) 0]

end

end Theyos.Roster

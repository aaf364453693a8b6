import Theyos.Core.Machine.Tasks
import Theyos.Models.MeshSession.Rekey.Position

/-!
# Permits among several states

A permit may be held for any time and presented to any state. It is taken at most once and only by
its issuer, and what a state counts is its schedule.
-/

namespace Theyos.MeshSession

open Machine

/-- A permit of either kind. -/
inductive Permit where
  | nonMarker (permit : SendNonMarkerPermit)
  | marker (permit : SendMarkerPermit)

namespace Permit

/-- The record a permit is for. -/
def record : Permit → IncomingRecord
  | nonMarker _ => .nonMarker
  | marker permit => .marker permit.nextGeneration

/-- The issuer and its counters when the permit was issued. -/
def snapshot : Permit → RekeyStateId × UInt64 × UInt64
  | nonMarker permit => (permit.issuer, permit.expectedGeneration, permit.expectedPolicyCount)
  | marker permit => (permit.issuer, permit.expectedGeneration, permit.expectedPolicyCount)

end Permit

namespace DirectionalRekeyState

variable {s s' : DirectionalRekeyState} {permit : Permit} {marker : Bool}

/-- Ask for a permit of one kind. -/
def beforeSend (s : DirectionalRekeyState) : Bool → Except RekeyError Permit
  | false => do return .nonMarker (← s.beforeSendNonMarker)
  | true => do return .marker (← s.beforeSendMarker)

/-- Spend a permit by the call of its kind. -/
def afterSend (s : DirectionalRekeyState) : Permit → Except RekeyError DirectionalRekeyState
  | .nonMarker permit => s.afterSendNonMarker permit
  | .marker permit => s.afterSendMarker permit

/-- An issued permit holds the counters, and spending it on its issuer is receiving its record. -/
theorem beforeSend_spec (h : s.beforeSend marker = .ok permit) :
    permit.snapshot = (s.id, s.generation, s.policyCount) ∧
      s.afterSend permit = s.onReceive permit.record := by
  cases marker <;> simp only [beforeSend, eq_ok_iff] at h <;> obtain ⟨p, hp, rfl⟩ := h
  case false =>
    refine ⟨?_, afterSendNonMarker_eq hp⟩
    unfold beforeSendNonMarker at hp
    split at hp <;> cases hp
    rfl
  case true =>
    obtain ⟨hafter, hvalid, _⟩ := afterSendMarker_eq hp
    simp only [validateMarkerPermit, require_eq_ok, not_or, not_not] at hvalid
    exact ⟨by simp only [Permit.snapshot, hvalid], hafter⟩

/-- A state takes only a permit with its own identity and counters, and keeps its identity. -/
theorem afterSend_spec (h : s.afterSend permit = .ok s') :
    permit.snapshot = (s.id, s.generation, s.policyCount) ∧ s'.id = s.id := by
  cases permit <;>
    simp only [afterSend, afterSendNonMarker, afterSendMarker, validateMarkerPermit, eq_ok_iff,
      not_or, not_not] at h
  · obtain ⟨hsame, _, _, rfl⟩ := h
    exact ⟨by simp only [Permit.snapshot, hsame], rfl⟩
  · obtain ⟨hsame, rfl⟩ := h
    exact ⟨by simp only [Permit.snapshot, hsame], rfl⟩

end DirectionalRekeyState

open DirectionalRekeyState

/-- Several states, the permits that exist, and the permits each state took. -/
structure PermitWorld (ι : Type) where
  states : ι → DirectionalRekeyState
  minted : List Permit
  accepted : ι → List Permit

/-- A call on one of the states. -/
inductive PermitCall (ι : Type) where
  | beforeSend (i : ι) (marker : Bool)
  | afterSend (i : ι) (permit : Permit)
  | validateMarkerPermit (i : ι) (permit : SendMarkerPermit)

namespace PermitWorld

variable {ι : Type}

/-- What one call returns and leaves; a permit that was presented can be presented again. -/
def call [DecidableEq ι] (w : PermitWorld ι) :
    PermitCall ι → Except RekeyError Unit × PermitWorld ι
  | .beforeSend i marker =>
    match (w.states i).beforeSend marker with
    | .ok permit => (.ok (), { w with minted := permit :: w.minted })
    | .error e => (.error e, w)
  | .afterSend i permit =>
    match (w.states i).afterSend permit with
    | .ok s => (.ok (), { w with
        states := Function.update w.states i s
        accepted := Function.update w.accepted i (w.accepted i ++ [permit]) })
    | .error e => (.error e, w)
  | .validateMarkerPermit i permit => ((w.states i).validateMarkerPermit permit, w)

/-- What the calls lead to, refused ones among them; a permit is presented once it exists. -/
inductive Reachable [DecidableEq ι] (start : ι → DirectionalRekeyState) : PermitWorld ι → Prop
  | init : Reachable start ⟨start, [], fun _ => []⟩
  | call (c : PermitCall ι) (h : Reachable start w)
      (hheld : ∀ i permit, c = .afterSend i permit → permit ∈ w.minted) :
      Reachable start (w.call c).2

variable {start : ι → DirectionalRekeyState} {w : PermitWorld ι} {i i' : ι} {j j' : ℕ}
  {s : DirectionalRekeyState} {permit : Permit}

/-- One of the states at a position of its schedule. -/
def StandsAt (start : ι → DirectionalRekeyState) (i : ι) (j : ℕ) (s : DirectionalRekeyState) :
    Prop :=
  s.id = (start i).id ∧ AtPosition (start i).threshold j s

/-- A permit of one of the states at a position of its schedule. -/
def IssuedAt (start : ι → DirectionalRekeyState) (i : ι) (j : ℕ) (permit : Permit) : Prop :=
  ∃ s marker, StandsAt start i j s ∧ s.beforeSend marker = .ok permit

/-- A permit fits only the state that issued it, where it was issued. -/
theorem IssuedAt.fits (hids : Function.Injective fun i => (start i).id)
    (h : IssuedAt start i' j' permit) (hs : StandsAt start i j s)
    (hsnap : permit.snapshot = (s.id, s.generation, s.policyCount)) :
    i' = i ∧ j' = j ∧ ∃ marker, s.beforeSend marker = .ok permit := by
  obtain ⟨t, marker, ⟨hid, hpos⟩, ht⟩ := h
  rw [(beforeSend_spec ht).1, Prod.mk.injEq, Prod.mk.injEq] at hsnap
  obtain ⟨hsame, hgeneration, hcount⟩ := hsnap
  obtain rfl : i' = i := hids (hid.symm.trans (hsame.trans hs.1))
  refine ⟨rfl, ?_, marker, ?_⟩
  · rw [← Nat.div_add_mod j' (start i').threshold.value.toNat, ← hpos.generation,
      ← hpos.policyCount, hgeneration, hcount, hs.2.generation, hs.2.policyCount, Nat.div_add_mod]
  · have hthreshold := hpos.threshold.trans hs.2.threshold.symm
    cases t
    cases s
    simp_all

/-- Every permit is of one of the states, and a state took the permits of its schedule in order. -/
structure Sound (start : ι → DirectionalRekeyState) (w : PermitWorld ι) : Prop where
  states : ∀ i, StandsAt start i (w.accepted i).length (w.states i)
  minted : ∀ permit ∈ w.minted, ∃ i j, IssuedAt start i j permit
  accepted : ∀ i j permit, (w.accepted i)[j]? = some permit →
    permit.record = scheduled (start i).threshold.value.toNat j ∧ IssuedAt start i j permit

theorem Reachable.sound [DecidableEq ι] (hids : Function.Injective fun i => (start i).id)
    (hnew : ∀ i, ∃ fresh, new (start i).threshold fresh = .ok (start i))
    (h : Reachable start w) : Sound start w := by
  induction h with
  | init =>
    refine ⟨fun i => ⟨rfl, ?_⟩, by simp, by simp⟩
    obtain ⟨fresh, hfresh⟩ := hnew i
    exact atPosition_new hfresh
  | @call w c _ hheld ih =>
    cases c
    case validateMarkerPermit => exact ih
    case beforeSend i marker =>
      rcases hpermit : (w.states i).beforeSend marker with e | permit <;>
        simp only [PermitWorld.call, hpermit]
      · exact ih
      · refine ⟨ih.states, fun p hp => ?_, ih.accepted⟩
        rcases List.mem_cons.mp hp with rfl | hp
        · exact ⟨i, _, _, marker, ih.states i, hpermit⟩
        · exact ih.minted p hp
    case afterSend i permit =>
      rcases hs : (w.states i).afterSend permit with e | s <;> simp only [PermitWorld.call, hs]
      · exact ih
      obtain ⟨i₀, j₀, hissued⟩ := ih.minted permit (hheld i permit rfl)
      obtain ⟨_, _, marker, hpermit⟩ := hissued.fits hids (ih.states i) (afterSend_spec hs).1
      have hreceive := (beforeSend_spec hpermit).2.symm.trans hs
      have hstands := ih.states i
      have hrecord := (hstands.2.onReceive_iff.mp ⟨s, hreceive⟩).1
      refine ⟨fun i' => ?_, ih.minted, fun i' j p hp => ?_⟩ <;>
        rcases eq_or_ne i' i with rfl | hi
      · simp only [Function.update_self, List.length_append]
        exact ⟨(afterSend_spec hs).2.trans hstands.1, hstands.2.advance hreceive⟩
      · simpa only [Function.update_of_ne hi] using ih.states i'
      · simp only [Function.update_self] at hp
        exact AllTasks.append (ih.accepted i') ⟨hrecord, _, marker, hstands, hpermit⟩
          (fun _ _ => id) j p hp
      · simp only [Function.update_of_ne hi] at hp
        exact ih.accepted i' j p hp

/-- Whatever permits are held and wherever they are presented, a state takes the permits of its own
schedule in order, no other state ever takes one of them or it takes one again, and a refused call
leaves all states as they are. -/
theorem permits_sound [DecidableEq ι] (hids : Function.Injective fun i => (start i).id)
    (hnew : ∀ i, ∃ fresh, new (start i).threshold fresh = .ok (start i))
    (h : Reachable start w) (i : ι) :
    AtPosition (start i).threshold (w.accepted i).length (w.states i) ∧
      (w.states i).policyCount.toNat < (start i).threshold.value.toNat ∧
        (∀ c e, (w.call c).1 = .error e → (w.call c).2 = w) ∧
          ∀ j permit, (w.accepted i)[j]? = some permit →
            permit.record = scheduled (start i).threshold.value.toNat j ∧
              permit.snapshot.1 = (start i).id ∧
                ∀ i' j', (w.accepted i')[j']? = some permit → i' = i ∧ j' = j := by
  have hsound := h.sound hids hnew
  have hpos := (hsound.states i).2
  refine ⟨hpos, ?_, fun c e he => ?_, fun j permit hp => ?_⟩
  · rw [hpos.policyCount]
    exact Nat.mod_lt _ (toNat_pos _)
  · cases c <;> grind [PermitWorld.call]
  · obtain ⟨hrecord, s, marker, hs, hpermit⟩ := hsound.accepted i j permit hp
    have hsnap := (beforeSend_spec hpermit).1
    refine ⟨hrecord, by rw [hsnap]; exact hs.1, fun i' j' hp' => ?_⟩
    obtain ⟨hi, hj, _⟩ := (hsound.accepted i' j' permit hp').2.fits hids hs hsnap
    exact ⟨hi, hj⟩

/-- Two fresh states under a threshold of two. -/
def twoStates (i : Bool) : DirectionalRekeyState :=
  ⟨Vector.replicate 32 i.toUInt8, 0, 0, ⟨(NonZeroU64.new 2).getD .one⟩⟩

theorem permits_sound_two : ∃ w, Reachable twoStates w ∧ (w.accepted false).length = 1 ∧
    (w.states false).policyCount.toNat < 2 := by
  have hminted := (Reachable.init : Reachable twoStates _).call (.beforeSend false false) (by simp)
  have h := hminted.call (.afterSend false _) (fun _ _ hc => by cases hc; exact .head _)
  have hids : ∀ i j, (twoStates i).id = (twoStates j).id → i = j := by decide
  exact ⟨_, h, rfl, (permits_sound (fun i j => hids i j) (fun _ => ⟨some _, rfl⟩) h false).2.1⟩

end PermitWorld

end Theyos.MeshSession

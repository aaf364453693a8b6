import Theyos.Models.NonceLedger.Outcome

/-!
# Single use of a nonce

An attempt is judged by the floor it brings, and drops the entries that expired below it. A later
attempt may bring an earlier floor, and is then judged as if those entries had not expired.
-/

namespace Theyos.NonceLedger

open Household Machine

variable {F : Formats} {hhId : HouseholdId}

/-- The floor that an attempt was judged by. -/
def Event.usedFloor : Event hhId → Option UInt64
  | .served request _ _ => some request.1.trustedFloor.unixSeconds
  | .refused request _ =>
    if request.trustedFloor.hhId = hhId then some request.trustedFloor.unixSeconds else none
  | _ => none

/-- The floors never decrease in the order in which the attempts take effect. -/
def FloorsAscend (log : List (Event hhId)) : Prop :=
  (log.filterMap Event.usedFloor).Pairwise (· ≤ ·)

/-- Whether an attempt with this key and evidence was committed. -/
def Event.commits (key : MeshIntentNonceKey) (evidence : MeshIntentNonceEvidence) :
    Event hhId → Bool
  | .served request (.committed _) _ => request.1.key = key && request.1.evidence = evidence
  | _ => false

theorem Event.commits_iff {event : Event hhId} {key : MeshIntentNonceKey}
    {evidence : MeshIntentNonceEvidence} :
    event.commits key evidence ↔ event.Commits key evidence := by
  rcases event with _ | _ | _ | ⟨request, _ | _ | _ | _, delivered⟩ <;>
    simp [Event.commits, Event.Commits]

variable {earlier : Event hhId} {after before log : List (Event hhId)}

theorem FloorsAscend.le {event : Event hhId} {floor floor' : UInt64} (h : FloorsAscend log)
    (hlog : log = before ++ event :: after) (hevent : event.usedFloor = some floor)
    (hearlier : earlier ∈ before) (hfloor : earlier.usedFloor = some floor') : floor' ≤ floor := by
  unfold FloorsAscend at h
  rw [hlog, List.filterMap_append, List.pairwise_append] at h
  exact h.2.2 floor' (List.mem_filterMap.mpr ⟨earlier, hearlier, hfloor⟩) floor
    (List.mem_filterMap.mpr ⟨event, by simp, hevent⟩)

variable {outcome : MeshIntentNonceConsumeOutcome}

/-- An attempt that was committed had not expired below any floor used before it. -/
theorem FloorsAscend.lt_notAfter {request : Accepted hhId} {delivered : Bool} {floor : UInt64}
    (h : FloorsAscend log) (hlog : log = before ++ .served request outcome delivered :: after)
    (hearlier : earlier ∈ before) (hfloor : earlier.usedFloor = some floor) :
    floor < request.1.evidence.notAfter := by
  obtain ⟨-, -, haccepted⟩ := WorkerRequest.check_eq_ok.mp request.2
  exact UInt64.lt_of_le_of_lt (h.le hlog rfl hearlier hfloor) haccepted

/-- An earlier commit of the same key and evidence still stands. -/
theorem FloorsAscend.standing {request : Accepted hhId} {delivered : Bool} (h : FloorsAscend log)
    (hlog : log = before ++ .served request outcome delivered :: after)
    (hearlier : earlier ∈ before) (hcommits : earlier.Commits request.1.key request.1.evidence) :
    Standing request.1.key request.1.evidence before := by
  obtain ⟨first, between, hsplit⟩ := List.append_of_mem hearlier
  refine ⟨first, earlier, between, hsplit, hcommits, fun event hevent hexpires => ?_⟩
  have hbefore : event ∈ before := by simp [hsplit, hevent]
  rcases event with _ | _ | _ | ⟨later, told, learned⟩ <;> try exact hexpires
  exact absurd hexpires (UInt64.not_lt.mpr (UInt64.le_of_lt (h.lt_notAfter hlog hbefore rfl)))

section

/-- Another key. -/
def otherKey : MeshIntentNonceKey := smallKey "b" (by decide)

/-- The floors that were issued, in this order. -/
def issuedFloors : List UInt64 := [100, 200]

/-- The records of a key that is dropped and added again. -/
def staleTable : List LedgerRecordV1 :=
  [smallRecord 1 [], smallRecord 2 [("a", .of replayedKey (smallEvidence 150))],
    smallRecord 3 [("b", .of otherKey (smallEvidence 300))],
    smallRecord 4 [("a", .of replayedKey (smallEvidence 150)),
      ("b", .of otherKey (smallEvidence 300))]]

/-- Attempts of two processes, given with the expiry and the floor of each. -/
def floorOps (attempts : List (ℕ × MeshIntentNonceKey × UInt64 × UInt64)) : List Op :=
  [.openLedger 0 smallConfig quietOpen, .openLedger 1 smallConfig quietOpen] ++
    attempts.flatMap fun a => attempted a.1 (smallRequest a.2.1 a.2.2.1 a.2.2.2) quiet

/-- One process uses the first floor again after another has used the second one. -/
def staleAttempts : List (ℕ × MeshIntentNonceKey × UInt64 × UInt64) :=
  [(0, replayedKey, 150, 100), (1, otherKey, 300, 200), (0, replayedKey, 150, 100)]

/-- Both processes use the first floor. -/
def promptAttempts : List (ℕ × MeshIntentNonceKey × UInt64 × UInt64) :=
  [(0, replayedKey, 150, 100), (1, replayedKey, 150, 100)]

instance (log : List (Event hhId)) : Decidable (FloorsAscend log) :=
  inferInstanceAs (Decidable (List.Pairwise _ _))

end

/-- Where the floors never decrease, a key and its evidence are committed at most once, and never
after a floor at or above the expiry was used. -/
theorem nonce_single_use (hF : F.Lawful) (hhId : HouseholdId) (ops : List Op)
    (hfloors : FloorsAscend (World.run F hhId ops).log) :
    (∀ key evidence, (World.run F hhId ops).log.countP (Event.commits key evidence) ≤ 1) ∧
      ∀ before request generation delivered after,
        (World.run F hhId ops).log =
          before ++ .served request (.committed generation) delivered :: after →
        ∀ earlier ∈ before, ∀ floor, earlier.usedFloor = some floor →
          floor < request.1.evidence.notAfter := by
  have hexplained := (@World.run_accounted F hhId hF ops).explained
  refine ⟨fun key evidence => Justified.countP_le_one ?_,
    fun before request generation delivered after hlog earlier hearlier floor =>
      hfloors.lt_notAfter hlog hearlier⟩
  intro before event after hlog hevent earlier hearlier hcommits
  rw [Event.commits_iff] at hevent hcommits
  rcases event with _ | _ | _ | ⟨request, _ | _ | _ | _, delivered⟩ <;> try exact hevent
  obtain ⟨rfl, rfl⟩ := hevent
  have hlate := hexplained before _ after hlog _ (hfloors.standing hlog hearlier hcommits)
  obtain ⟨-, -, haccepted⟩ := WorkerRequest.check_eq_ok.mp request.2
  exact absurd hlate (UInt64.not_lt.mpr (UInt64.le_of_lt haccepted))

theorem nonce_single_use_small :
    FloorsAscend
        (World.run (tableFormats staleTable) smallHousehold (floorOps promptAttempts)).log ∧
      ∀ key evidence, (World.run (tableFormats staleTable) smallHousehold
        (floorOps promptAttempts)).log.countP (Event.commits key evidence) ≤ 1 := by
  have hfloors : FloorsAscend
      (World.run (tableFormats staleTable) smallHousehold (floorOps promptAttempts)).log := by
    decide +kernel
  exact ⟨hfloors, (nonce_single_use (tableFormats_lawful _) _ _ hfloors).1⟩

/-- A floor that was held while a later one was used lets a nonce be consumed twice. -/
theorem nonce_consumed_twice :
    issuedFloors.Pairwise (· ≤ ·) ∧ (∀ a ∈ staleAttempts, a.2.2.2 ∈ issuedFloors) ∧
      (World.run (tableFormats staleTable) smallHousehold (floorOps staleAttempts)).outcomes =
        [.committed 2, .committed 3, .committed 4] ∧
      (World.run (tableFormats staleTable) smallHousehold
        (floorOps staleAttempts)).log.countP
          (Event.commits replayedKey (smallEvidence 150)) = 2 := by
  decide +kernel

end Theyos.NonceLedger

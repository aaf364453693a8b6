import Theyos.Models.MeshSession.Rekey.State

/-!
# The rekey schedule

Both ends of a direction follow one schedule: with threshold `T`, the records of the direction are
numbered from zero, every `T`-th record is a marker, and the `k`-th marker carries the generation
`k`.
-/

namespace Theyos.MeshSession

open Machine

/-- The record at a position of the schedule. -/
def scheduled (T n : ℕ) : IncomingRecord :=
  if (n + 1) % T = 0 then .marker (.ofNat ((n + 1) / T)) else .nonMarker

namespace DirectionalRekeyState

variable {T : RekeyThreshold} {s s' : DirectionalRekeyState} {record : IncomingRecord} {n : ℕ}

/-- A state that has seen `n` records under the threshold. -/
structure AtPosition (T : RekeyThreshold) (n : ℕ) (s : DirectionalRekeyState) : Prop where
  threshold : s.threshold = T
  generation : s.generation.toNat = n / T.value.toNat
  policyCount : s.policyCount.toNat = n % T.value.toNat

theorem new_eq_ok {fresh : Option RekeyStateId} :
    new T fresh = .ok s ↔ ∃ id, fresh = some id ∧ s = ⟨id, 0, 0, T⟩ := by
  simp only [new, eq_ok_iff, eq_comm (b := s)]

/-- A fresh state has seen nothing. -/
theorem atPosition_new {fresh : Option RekeyStateId} (h : new T fresh = .ok s) :
    AtPosition T 0 s := by
  obtain ⟨id, _, rfl⟩ := new_eq_ok.mp h
  exact ⟨rfl, by simp, by simp⟩

/-- What a received record has to satisfy, and what it changes. -/
theorem onReceive_nonMarker_eq_ok :
    s.onReceive .nonMarker = .ok s' ↔ s.policyCount ≠ s.threshold.minusOne ∧
      ∃ count, checkedAdd s.policyCount 1 = some count ∧ s' = { s with policyCount := count } := by
  by_cases h : s.policyCount = s.threshold.minusOne
  · simp [onReceive, h]
  · simp only [onReceive, h, if_false, eq_ok_iff, ne_eq, not_false_eq_true, true_and,
      eq_comm (b := s')]

/-- What a received marker has to satisfy, and what it changes. -/
theorem onReceive_marker_eq_ok {g : UInt64} :
    s.onReceive (.marker g) = .ok s' ↔ checkedAdd s.generation 1 = some g ∧
      s.policyCount = s.threshold.minusOne ∧ s' = { s with generation := g, policyCount := 0 } := by
  simp only [onReceive, eq_ok_iff]
  grind

/-- Spending a permit on its issuer is receiving the record. -/
theorem afterSendNonMarker_eq {permit : SendNonMarkerPermit}
    (h : s.beforeSendNonMarker = .ok permit) :
    s.afterSendNonMarker permit = s.onReceive .nonMarker := by
  unfold beforeSendNonMarker at h
  split at h
  · cases h
  · rename_i hdue
    cases h
    simp [afterSendNonMarker, onReceive, require, hdue, bind, Except.bind]

/-- Spending a marker's permit on its issuer is receiving the marker. -/
theorem afterSendMarker_eq {permit : SendMarkerPermit} (h : s.beforeSendMarker = .ok permit) :
    s.afterSendMarker permit = s.onReceive (.marker permit.nextGeneration) ∧
      s.validateMarkerPermit permit = .ok () ∧
        ∃ s', s.onReceive (.marker permit.nextGeneration) = .ok s' := by
  unfold beforeSendMarker at h
  split at h
  · cases h
  · rename_i hdue
    rw [not_not] at hdue
    obtain ⟨next, hnext, hpermit⟩ := bind_eq_ok.mp h
    cases hpermit
    rw [okOr_eq_ok] at hnext
    have hreceive := onReceive_marker_eq_ok.mpr ⟨hnext, hdue, rfl⟩
    have hvalid : s.validateMarkerPermit ⟨s.id, s.generation, s.policyCount, next⟩ = .ok () := by
      simp [validateMarkerPermit, require]
    refine ⟨?_, hvalid, _, hreceive⟩
    rw [hreceive, afterSendMarker, hvalid]
    rfl

variable {e : RekeyError}

theorem beforeSendNonMarker_eq_error : s.beforeSendNonMarker = .error e ↔
    e = .expectedRekeyMarker ∧ s.policyCount = s.threshold.minusOne := by
  by_cases h : s.policyCount = s.threshold.minusOne <;> simp [beforeSendNonMarker, h, eq_comm]

/-- A marker that is due can be sent except in the last generation. -/
theorem last_of_beforeSendMarker (hdue : s.policyCount = s.threshold.minusOne)
    (h : s.beforeSendMarker = .error e) : s.generation = maxU64 := by
  by_contra hlast
  have hnext : checkedAdd s.generation 1 = some (s.generation + 1) := by
    have hle := UInt64.le_maxU64 s.generation
    have hne := mt UInt64.toNat_inj.mp hlast
    rw [toNat_maxU64] at hle hne
    exact if_pos (by change s.generation.toNat + 1 < _; omega)
  simp [beforeSendMarker, hdue, hnext, okOr, bind, Except.bind, pure, Except.pure] at h

/-- A marker is due right after a marker only under a threshold of one. -/
theorem one_of_due {g : UInt64} (h : s.onReceive (.marker g) = .ok s')
    (hnext : s'.beforeSendNonMarker = .error e) : s.threshold.value.get = 1 := by
  obtain ⟨_, _, rfl⟩ := onReceive_marker_eq_ok.mp h
  exact sub_eq_zero.mp (beforeSendNonMarker_eq_error.mp hnext).2.symm

theorem toNat_pos (T : RekeyThreshold) : 0 < T.value.toNat :=
  Nat.pos_of_ne_zero fun h => T.value.ne_zero (UInt64.toNat_inj.mp h)

theorem minusOne_toNat (T : RekeyThreshold) : T.minusOne.toNat = T.value.toNat - 1 := by
  have hpos := toNat_pos T
  have hle : (1 : UInt64) ≤ T.value.get := UInt64.le_iff_toNat_le.mpr hpos
  rw [RekeyThreshold.minusOne, UInt64.toNat_sub_of_le _ _ hle]
  rfl

/-- A marker is due exactly where the schedule has one. -/
theorem AtPosition.due_iff (h : AtPosition T n s) :
    s.policyCount = s.threshold.minusOne ↔ (n + 1) % T.value.toNat = 0 := by
  have hpos := toNat_pos T
  rw [← UInt64.toNat_inj, h.policyCount, h.threshold, minusOne_toNat]
  constructor
  · intro hcount
    rw [Nat.add_mod, hcount]
    by_cases hone : T.value.toNat = 1
    · simp [hone]
    · rw [Nat.mod_eq_of_lt (a := 1) (by omega), Nat.sub_add_cancel hpos, Nat.mod_self]
  · intro hzero
    obtain ⟨k, hk⟩ := Nat.dvd_of_mod_eq_zero hzero
    have hn : n = T.value.toNat * (k - 1) + (T.value.toNat - 1) := by
      cases k with
      | zero => omega
      | succ k =>
        rw [Nat.mul_succ] at hk
        rw [Nat.add_sub_cancel]
        omega
    rw [hn, Nat.mul_add_mod, Nat.mod_eq_of_lt (by omega)]

theorem succ_div_of_due {T n : ℕ} (h : (n + 1) % T = 0) : (n + 1) / T = n / T + 1 := by
  rw [Nat.succ_div, if_pos (Nat.dvd_of_mod_eq_zero h)]

theorem succ_div_of_not_due {T n : ℕ} (h : (n + 1) % T ≠ 0) : (n + 1) / T = n / T := by
  rw [Nat.succ_div, if_neg fun hdvd => h (Nat.mod_eq_zero_of_dvd hdvd), Nat.add_zero]

theorem succ_mod_of_not_due {T n : ℕ} (h : (n + 1) % T ≠ 0) : (n + 1) % T = n % T + 1 := by
  have hdiv := succ_div_of_not_due h
  have hn := Nat.div_add_mod n T
  have hsucc := Nat.div_add_mod (n + 1) T
  rw [hdiv] at hsucc
  omega

section

variable (h : AtPosition T n s)

include h

/-- A state accepts exactly the scheduled record, while its generation can be counted. -/
theorem AtPosition.onReceive_iff : (∃ s', s.onReceive record = .ok s') ↔
      record = scheduled T.value.toNat n ∧ (n + 1) / T.value.toNat ≤ maxU64.toNat := by
  by_cases hdue : (n + 1) % T.value.toNat = 0
  · have hcount := h.due_iff.mpr hdue
    have hdiv := succ_div_of_due hdue
    rw [scheduled, if_pos hdue]
    cases record with
    | nonMarker => simp [onReceive_nonMarker_eq_ok, hcount]
    | marker g =>
      simp only [onReceive_marker_eq_ok, checkedAdd_one_eq_some, h.generation, hcount, true_and,
        exists_and_left, exists_eq, and_true, IncomingRecord.marker.injEq, ← hdiv]
      constructor
      · intro hg
        refine ⟨?_, hg ▸ UInt64.le_maxU64 g⟩
        rw [← hg, UInt64.ofNat_toNat]
      · rintro ⟨rfl, hle⟩
        exact UInt64.toNat_ofNat_of_lt (Nat.lt_succ_of_le hle)
  · have hcount := mt h.due_iff.mp hdue
    have hdiv := succ_div_of_not_due hdue
    rw [scheduled, if_neg hdue]
    cases record with
    | marker g => simp [onReceive_marker_eq_ok, hcount]
    | nonMarker =>
      have hmax : s.policyCount ≠ maxU64 := by
        intro hmax
        have hlt : (n + 1) % T.value.toNat ≤ maxU64.toNat :=
          (Nat.mod_lt _ (toNat_pos T)).le.trans T.value.toNat_le_max
        rw [succ_mod_of_not_due hdue, ← h.policyCount, hmax] at hlt
        omega
      obtain ⟨count, hadd, _⟩ := checkedAdd_one_of_ne hmax
      refine ⟨fun _ => ⟨rfl, ?_⟩, fun _ => ⟨_, onReceive_nonMarker_eq_ok.mpr
        ⟨hcount, count, hadd, rfl⟩⟩⟩
      rw [hdiv, ← h.generation]
      exact UInt64.le_maxU64 _

/-- An accepted record advances the position. -/
theorem AtPosition.advance (hs : s.onReceive record = .ok s') : AtPosition T (n + 1) s' := by
  cases record with
  | nonMarker =>
    obtain ⟨hcount, count, hadd, rfl⟩ := onReceive_nonMarker_eq_ok.mp hs
    have hdue := mt h.due_iff.mpr hcount
    refine ⟨h.threshold, ?_, ?_⟩
    · rw [succ_div_of_not_due hdue]
      exact h.generation
    · rw [succ_mod_of_not_due hdue, ← h.policyCount]
      exact checkedAdd_one_eq_some.mp hadd
  | marker g =>
    obtain ⟨hnext, hcount, rfl⟩ := onReceive_marker_eq_ok.mp hs
    have hdue := h.due_iff.mp hcount
    refine ⟨h.threshold, ?_, by rw [hdue]; rfl⟩
    rw [succ_div_of_due hdue, ← h.generation]
    exact checkedAdd_one_eq_some.mp hnext

/-- A record that is permitted is accepted. -/
theorem AtPosition.permitted {permit : SendNonMarkerPermit}
    (hpermit : s.beforeSendNonMarker = .ok permit) : ∃ s', s.onReceive .nonMarker = .ok s' := by
  have hcount : s.policyCount ≠ s.threshold.minusOne := by
    intro hdue
    simp [beforeSendNonMarker, hdue] at hpermit
  have hdue := mt h.due_iff.mpr hcount
  refine h.onReceive_iff.mpr ⟨by rw [scheduled, if_neg hdue], ?_⟩
  rw [succ_div_of_not_due hdue, ← h.generation]
  exact UInt64.le_maxU64 _

/-- A sequence of records is accepted exactly when it follows the schedule. -/
theorem AtPosition.receiveAll_iff {records : List IncomingRecord} :
    (∃ s', s.receiveAll records = .ok s') ↔
      ∀ i record, records[i]? = some record →
        record = scheduled T.value.toNat (n + i) ∧ (n + i + 1) / T.value.toNat ≤ maxU64.toNat := by
  induction records generalizing n s with
  | nil => simp [receiveAll]
  | cons record records ih =>
    constructor
    · rintro ⟨s', hs'⟩ i r hr
      obtain ⟨mid, hmid, hrest⟩ := bind_eq_ok.mp hs'
      cases i with
      | zero =>
        cases hr
        exact h.onReceive_iff.mp ⟨mid, hmid⟩
      | succ i =>
        have hi := (ih (h.advance hmid)).mp ⟨s', hrest⟩ i r hr
        rwa [Nat.add_right_comm] at hi
    · intro hall
      obtain ⟨mid, hmid⟩ := h.onReceive_iff.mpr (hall 0 record rfl)
      have hrest := (ih (h.advance hmid)).mpr fun i r hr => by
        have hi := hall (i + 1) r hr
        rwa [← Nat.add_assoc n i 1, Nat.add_right_comm n i 1] at hi
      obtain ⟨s', hs'⟩ := hrest
      exact ⟨s', bind_eq_ok.mpr ⟨mid, hmid, hs'⟩⟩

end

/-- Processing a longer sequence goes through every shorter one. -/
theorem receiveAll_append {first second : List IncomingRecord} :
    s.receiveAll (first ++ second) = (s.receiveAll first).bind (·.receiveAll second) := by
  induction first generalizing s with
  | nil => rfl
  | cons record first ih =>
    simp only [List.cons_append, receiveAll, bind, Except.bind]
    cases s.onReceive record with
    | error e => rfl
    | ok mid => exact ih

/-- A state accepts a sequence of records. -/
def Accepts (s : DirectionalRekeyState) (records : List IncomingRecord) : Prop :=
  ∃ s', s.receiveAll records = .ok s'

section

variable {records others before after : List IncomingRecord} {g : UInt64}

variable (h : AtPosition T 0 s)

include h

/-- A fresh state accepts exactly the beginnings of the schedule. -/
theorem AtPosition.accepts_iff :
    s.Accepts records ↔ ∀ i record, records[i]? = some record →
      record = scheduled T.value.toNat i ∧ (i + 1) / T.value.toNat ≤ maxU64.toNat := by
  have hiff : s.Accepts records ↔ _ := h.receiveAll_iff
  simpa only [Nat.zero_add] using hiff

/-- Where an accepted sequence has a marker, and what the marker carries. -/
theorem AtPosition.marker_iff (hrecords : s.Accepts records) {i : ℕ} :
    records[i]? = some (.marker g) ↔
      i < records.length ∧ (i + 1) % T.value.toNat = 0 ∧ g.toNat = (i + 1) / T.value.toNat := by
  have hall := h.accepts_iff.mp hrecords
  constructor
  · intro hi
    obtain ⟨hrecord, hle⟩ := hall i _ hi
    refine ⟨(List.getElem?_eq_some_iff.mp hi).1, ?_⟩
    unfold scheduled at hrecord
    split at hrecord
    · rename_i hdue
      cases hrecord
      exact ⟨hdue, UInt64.toNat_ofNat_of_lt (Nat.lt_succ_of_le hle)⟩
    · cases hrecord
  · rintro ⟨hi, hdue, hg⟩
    rw [List.getElem?_eq_getElem hi]
    have hrecord := (hall i _ (List.getElem?_eq_getElem hi)).1
    rw [hrecord, scheduled, if_pos hdue, ← hg, UInt64.ofNat_toNat]

/-- Accepted sequences of the same length are equal. -/
theorem AtPosition.accepts_unique (hrecords : s.Accepts records)
    (hothers : s.Accepts others) (hlength : records.length = others.length) :
    records = others := by
  have hall := h.accepts_iff.mp hrecords
  have hall' := h.accepts_iff.mp hothers
  refine List.ext_getElem hlength fun i hi hi' => ?_
  rw [(hall i _ (List.getElem?_eq_getElem hi)).1, (hall' i _ (List.getElem?_eq_getElem hi')).1]

/-- A generation is carried by one marker only. -/
theorem AtPosition.marker_once (hrecords : s.Accepts records)
    {i j : ℕ} (hi : records[i]? = some (.marker g)) (hj : records[j]? = some (.marker g)) :
    i = j := by
  obtain ⟨_, hdi, hgi⟩ := (h.marker_iff hrecords).mp hi
  obtain ⟨_, hdj, hgj⟩ := (h.marker_iff hrecords).mp hj
  have hi := Nat.div_add_mod (i + 1) T.value.toNat
  have hj := Nat.div_add_mod (j + 1) T.value.toNat
  rw [← hgi] at hi
  rw [← hgj] at hj
  omega

/-- With and without a marker, a sequence is accepted only when the marker comes last and is not
a duplicate. -/
theorem AtPosition.accepts_marker
    (hwith : s.Accepts (before ++ .marker g :: after)) (hwithout : s.Accepts (before ++ after)) :
    after = [] ∧ .marker g ∉ before := by
  have hpos : (before ++ .marker g :: after)[before.length]? = some (.marker g) := by simp
  constructor
  · cases after with
    | nil => rfl
    | cons record after =>
      have hnext : (before ++ record :: after)[before.length]? = some record := by simp
      have hmarker : record = .marker g := by
        rw [((h.accepts_iff.mp hwithout) _ _ hnext).1, ((h.accepts_iff.mp hwith) _ _ hpos).1]
      subst hmarker
      have hpos' : (before ++ .marker g :: .marker g :: after)[before.length + 1]? =
          some (.marker g) := by simp
      exact absurd (h.marker_once hwith hpos hpos') (by omega)
  · intro hmem
    obtain ⟨i, hi, hget⟩ := List.getElem_of_mem hmem
    have hi' : (before ++ .marker g :: after)[i]? = some (.marker g) := by
      rw [List.getElem?_append_left hi, List.getElem?_eq_getElem hi, hget]
    have := h.marker_once hwith hi' hpos
    omega

end

end DirectionalRekeyState

end Theyos.MeshSession

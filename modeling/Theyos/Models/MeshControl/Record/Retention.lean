import Theyos.Models.MeshControl.Record.State

/-!
# Bounded retention of terminal results

A terminal result is kept for replays of its request. Recording is idempotent by transaction and
fails closed on a different request. At capacity the oldest acknowledged result makes room.
-/

namespace Theyos.MeshControl

/-- Why a terminal result could not be recorded. -/
inductive TerminalPushError where
  | requestConflict
  | retentionExhausted
  deriving DecidableEq, Repr

variable (v : List TerminalResult)

/-- Record `r` in `v`; `force` allows dropping the oldest unacknowledged result. -/
def pushBoundedTerminalImpl (r : TerminalResult) (force : Bool) :
    Except TerminalPushError (List TerminalResult) :=
  match v.find? (·.txnId == r.txnId) with
  | some existing => if existing.request ≠ r.request then .error .requestConflict else .ok v
  | none =>
    if maxRecentTerminalResults ≤ v.length then
      match v.findIdx? (·.acked) with
      | some idx => .ok (v.eraseIdx idx ++ [r])
      | none => if force then .ok (v.eraseIdx 0 ++ [r]) else .error .retentionExhausted
    else .ok (v ++ [r])

/-- The ordinary, fail-closed form. -/
def pushBoundedTerminal (r : TerminalResult) :
    Except TerminalPushError (List TerminalResult) := pushBoundedTerminalImpl v r false

/-- The urgent form, which capacity cannot block. -/
def pushBoundedTerminalUrgent (r : TerminalResult) :
    Except TerminalPushError (List TerminalResult) := pushBoundedTerminalImpl v r true

/-- Acknowledge one transaction's result. -/
def ackTerminal (txnId : TxnId) : List TerminalResult :=
  v.map fun e => if e.txnId == txnId then { e with acked := true } else e

/-- What is kept of a list of results when a new transaction is recorded. -/
inductive MakesRoom (force : Bool) (v : List TerminalResult) : List TerminalResult → Prop
  | room : v.length < maxRecentTerminalResults → MakesRoom force v v
  | acked (idx : ℕ) : maxRecentTerminalResults ≤ v.length → v.findIdx? (·.acked) = some idx →
      MakesRoom force v (v.eraseIdx idx)
  | forced : maxRecentTerminalResults ≤ v.length → (∀ e ∈ v, e.acked = false) → force = true →
      MakesRoom force v (v.eraseIdx 0)

theorem find?_txnId_eq_none {v : List TerminalResult} {txnId : TxnId}
    (hfresh : ∀ e ∈ v, e.txnId ≠ txnId) : v.find? (·.txnId == txnId) = none := by
  rw [List.find?_eq_none]
  intro e he
  simpa using hfresh e he

/-- Recording a new transaction keeps what room requires and appends the result. -/
theorem pushBoundedTerminalImpl_eq_ok {v w : List TerminalResult} {r : TerminalResult}
    {force : Bool} (hfresh : ∀ e ∈ v, e.txnId ≠ r.txnId) :
    pushBoundedTerminalImpl v r force = .ok w ↔
      ∃ kept, MakesRoom force v kept ∧ w = kept ++ [r] := by
  have hfind := find?_txnId_eq_none hfresh
  simp only [pushBoundedTerminalImpl, hfind]
  constructor
  · intro h
    split at h
    · rename_i hfull
      split at h
      · rename_i idx hidx
        exact ⟨_, .acked idx hfull hidx, (Except.ok.inj h).symm⟩
      · rename_i hnone
        split at h
        · rename_i hforce
          refine ⟨_, .forced hfull ?_ hforce, (Except.ok.inj h).symm⟩
          intro e he
          simpa using List.findIdx?_eq_none_iff.mp hnone e he
        · cases h
    · rename_i hroom
      exact ⟨_, .room (Nat.lt_of_not_le hroom), (Except.ok.inj h).symm⟩
  · rintro ⟨kept, hkept, rfl⟩
    cases hkept with
    | room hroom => rw [if_neg (Nat.not_le.mpr hroom)]
    | acked idx hfull hidx => rw [if_pos hfull, hidx]
    | forced hfull hall hforce =>
      have hnone : v.findIdx? (·.acked) = none := by
        rw [List.findIdx?_eq_none_iff]
        intro e he
        simpa using hall e he
      rw [if_pos hfull, hnone]
      simp only [hforce, if_true]

namespace MakesRoom

variable {force : Bool} {v kept : List TerminalResult}

/-- The ordinary form makes room unless the list is full and unacknowledged. -/
theorem exists_of_room (force : Bool)
    (hroom : v.length < maxRecentTerminalResults ∨ ∃ e ∈ v, e.acked = true) :
    ∃ kept, MakesRoom force v kept := by
  by_cases hfull : maxRecentTerminalResults ≤ v.length
  · cases hidx : v.findIdx? (·.acked) with
    | some idx => exact ⟨_, .acked idx hfull hidx⟩
    | none =>
      obtain hlt | ⟨e, he, hacked⟩ := hroom
      · omega
      · have hne := List.findIdx?_eq_none_iff.mp hidx e he
        rw [hacked] at hne
        cases hne
  · exact ⟨_, .room (Nat.lt_of_not_le hfull)⟩

/-- The urgent form always makes room. -/
theorem exists_of_force (v : List TerminalResult) : ∃ kept, MakesRoom true v kept := by
  by_cases hacked : ∃ e ∈ v, e.acked = true
  · exact exists_of_room true (Or.inr hacked)
  · by_cases hfull : maxRecentTerminalResults ≤ v.length
    · refine ⟨_, .forced hfull ?_ rfl⟩
      intro e he
      exact Bool.eq_false_iff.mpr fun h => hacked ⟨e, he, h⟩
    · exact ⟨_, .room (Nat.lt_of_not_le hfull)⟩

variable (h : MakesRoom force v kept)

include h

/-- Making room never reorders or invents results. -/
theorem sublist : kept.Sublist v := by
  cases h with
  | room _ => exact List.Sublist.refl _
  | acked idx _ _ | forced _ _ _ => exact List.eraseIdx_sublist _ _

/-- A list within bounds has room for one more result afterwards. -/
theorem length_lt (hv : v.length ≤ maxRecentTerminalResults) :
    kept.length < maxRecentTerminalResults := by
  cases h with
  | room hlt => exact hlt
  | acked idx hfull hidx =>
    have hlt : idx < v.length := (List.findIdx?_eq_some_iff_getElem.mp hidx).1
    rw [List.length_eraseIdx_of_lt hlt]
    omega
  | forced hfull _ _ =>
    have hpos : 0 < maxRecentTerminalResults := by decide
    rw [List.length_eraseIdx_of_lt (by omega)]
    omega

/-- A result dropped to make room was acknowledged, or was the oldest of a full
list without acknowledgements under the urgent form. -/
theorem dropped {e : TerminalResult} (he : e ∈ v) (hk : e ∉ kept) :
    maxRecentTerminalResults ≤ v.length ∧
      (e.acked = true ∨ force = true ∧ (∀ x ∈ v, x.acked = false) ∧ v.head? = some e) := by
  cases h with
  | room _ => exact absurd he hk
  | acked idx hfull hidx =>
    refine ⟨hfull, Or.inl ?_⟩
    obtain ⟨hlt, hacked, _⟩ := List.findIdx?_eq_some_iff_getElem.mp hidx
    have hee : e = v[idx] := by
      by_contra hne
      obtain ⟨j, hj, hje⟩ := List.getElem_of_mem he
      have hji : j ≠ idx := by
        rintro rfl
        exact hne hje.symm
      exact hk (List.mem_eraseIdx_iff_getElem.mpr ⟨j, hj, hji, hje⟩)
    rw [hee]
    exact hacked
  | forced hfull hall hforce =>
    refine ⟨hfull, Or.inr ⟨hforce, hall, ?_⟩⟩
    cases v with
    | nil => cases he
    | cons x xs =>
      rcases List.mem_cons.mp he with rfl | hmem
      · rfl
      · exact absurd hmem hk

end MakesRoom

/-- Acknowledgement keeps every transaction, outcome, request and time in place. -/
theorem map_ackTerminal {β : Type*} (f : TerminalResult → β)
    (hf : ∀ e : TerminalResult, f { e with acked := true } = f e)
    (v : List TerminalResult) (txnId : TxnId) : (ackTerminal v txnId).map f = v.map f := by
  unfold ackTerminal
  rw [List.map_map]
  refine List.map_congr_left fun e _ => ?_
  rw [Function.comp_apply]
  split
  · exact hf e
  · rfl

end Theyos.MeshControl

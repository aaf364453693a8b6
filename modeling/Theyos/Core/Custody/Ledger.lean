import Mathlib.Data.List.Nodup
import Mathlib.Data.List.Perm.Basic
import Mathlib.Data.Nat.Basic
import Mathlib.Order.Basic

/-!
# Custody of numbered keys

A ledger keeps every key that was issued and not yet discarded in exactly one of three places:
pending, live or retired. Keys carry a rank, and the ledger carries a mark above every rank it
ever issued.
-/

namespace Theyos

/-- The custody state of a family of keys. -/
@[ext]
structure Ledger (κ : Type*) where
  /-- The key of the operation in flight, if any. -/
  pending : Option κ
  /-- Keys in use. -/
  live : List κ
  /-- Keys awaiting disposal. -/
  retired : List κ
  /-- A bound on every rank issued so far. -/
  mark : ℕ

namespace Ledger

variable {κ : Type*} [DecidableEq κ] {rank : κ → ℕ} {L L' : Ledger κ}

/-- Every key in custody, place by place. -/
def keys (L : Ledger κ) : List κ := L.pending.toList ++ L.live ++ L.retired

/-- The lifecycle actions. -/
inductive Act (κ : Type*) where
  | idle
  | assign (k : κ)
  | promote (k : κ)
  | revoke
  | expire (k : κ)
  | discard (k : κ)

/-- What each lifecycle action does to the three places and to the mark. -/
inductive Step (rank : κ → ℕ) (L : Ledger κ) : Act κ → Ledger κ → Prop
  | idle : Step rank L .idle L
  | assign (k : κ) : L.pending = none → L.mark < rank k →
      Step rank L (.assign k) { L with pending := some k, mark := rank k }
  | promote (k : κ) : L.pending = some k →
      Step rank L (.promote k) { L with pending := none, live := L.live ++ [k] }
  | revoke (m : ℕ) : L.mark ≤ m →
      Step rank L .revoke ⟨none, [], L.retired ++ L.pending.toList ++ L.live, m⟩
  | expire (k : κ) : k ∈ L.live →
      Step rank L (.expire k)
        { L with live := L.live.filter (· ≠ k), retired := L.retired ++ [k] }
  | discard (k : κ) : k ∈ L.retired →
      Step rank L (.discard k) { L with retired := L.retired.filter (· ≠ k) }

/-- Ranks identify the keys in custody and stay below the mark. -/
structure Sound (rank : κ → ℕ) (L : Ledger κ) : Prop where
  /-- No two places hold keys of the same rank. -/
  nodup : (L.keys.map rank).Nodup
  /-- No key in custody outranks the mark. -/
  bound : ∀ k ∈ L.keys, rank k ≤ L.mark

omit [DecidableEq κ] in
theorem Sound.keys_nodup (h : Sound rank L) : L.keys.Nodup := h.nodup.of_map

variable {k : κ}

omit [DecidableEq κ] in
theorem mem_keys : k ∈ L.keys ↔ L.pending = some k ∨ k ∈ L.live ∨ k ∈ L.retired := by
  simp only [keys, List.mem_append, Option.mem_toList, or_assoc]

omit [DecidableEq κ] in
/-- Keys in custody are identified by their rank. -/
theorem Sound.rank_inj (h : Sound rank L) {j : κ} (hj : j ∈ L.keys) (hk : k ∈ L.keys)
    (he : rank j = rank k) : j = k :=
  List.inj_on_of_nodup_map h.nodup hj hk he

/-- A list loses nothing when one of its keys is filtered out and put back. -/
theorem filter_ne_append_perm {xs : List κ} (hn : xs.Nodup) (hk : k ∈ xs) :
    (xs.filter (· ≠ k) ++ [k]).Perm xs := by
  have he : xs.filter (· ≠ k) = xs.erase k := by
    rw [hn.erase_eq_filter]
    refine List.filter_congr fun x _ => ?_
    by_cases hx : x = k <;> simp [hx]
  rw [he]
  exact List.perm_append_comm.trans (List.perm_cons_erase hk).symm

/-- Promotion only moves the pending key. -/
theorem Step.keys_perm_of_promote (h : Step rank L (.promote k) L') : L'.keys.Perm L.keys := by
  cases h with
  | promote k hp =>
    simp only [keys, hp, Option.toList_none, Option.toList_some, List.nil_append]
    exact (List.perm_append_comm).append_right _

/-- Revocation moves every key into retirement. -/
theorem Step.keys_perm_of_revoke (h : Step rank L .revoke L') : L'.keys.Perm L.keys := by
  cases h with
  | revoke m hm =>
    simp only [keys, Option.toList_none, List.nil_append, List.append_assoc]
    exact List.perm_append_comm.trans (by rw [List.append_assoc])

/-- Expiry moves exactly one live key into retirement. -/
theorem Step.keys_perm_of_expire (hs : Sound rank L) (h : Step rank L (.expire k) L') :
    L'.keys.Perm L.keys := by
  cases h with
  | expire k hk =>
    have hlive : L.live.Nodup := (List.nodup_append.mp (List.nodup_append.mp hs.keys_nodup).1).2.1
    have hmove := filter_ne_append_perm hlive hk
    have hretire : (L.retired ++ [k]).Perm ([k] ++ L.retired) := List.perm_append_comm
    refine (hretire.append_left (L.pending.toList ++ L.live.filter (· ≠ k))).trans ?_
    rw [show L.pending.toList ++ L.live.filter (· ≠ k) ++ ([k] ++ L.retired) =
      L.pending.toList ++ (L.live.filter (· ≠ k) ++ [k]) ++ L.retired by
        simp only [List.append_assoc]]
    exact (hmove.append_left _).append_right _

/-- Discarding drops exactly one retired key. -/
theorem Step.mem_keys_of_discard {j : κ} (hs : Sound rank L) (h : Step rank L (.discard k) L') :
    j ∈ L'.keys ↔ j ∈ L.keys ∧ j ≠ k := by
  cases h with
  | discard k hk =>
    have hdisjoint := (List.nodup_append.mp hs.keys_nodup).2.2
    have hout : ∀ x ∈ L.pending.toList ++ L.live, x ≠ k :=
      fun x hx => hdisjoint x hx k hk
    simp only [keys, List.mem_append, List.mem_filter, decide_eq_true_eq] at hout ⊢
    grind

variable {act : Act κ}

/-- The mark never moves down. -/
theorem Step.mark_le (h : Step rank L act L') : L.mark ≤ L'.mark := by
  cases h with
  | idle | promote | expire | discard => exact le_rfl
  | assign k _ hlt => exact hlt.le
  | revoke m hm => exact hm

omit [DecidableEq κ] in
theorem Sound.of_perm (hs : Sound rank L) (hp : L'.keys.Perm L.keys)
    (hm : L.mark ≤ L'.mark) : Sound rank L' where
  nodup := (hp.map rank).nodup_iff.mpr hs.nodup
  bound k hk := (hs.bound k (hp.mem_iff.mp hk)).trans hm

/-- Every lifecycle action keeps the ledger sound. -/
theorem Sound.step (hs : Sound rank L) (h : Step rank L act L') : Sound rank L' := by
  have hmark := h.mark_le
  cases act with
  | idle => cases h; exact hs
  | promote k => exact hs.of_perm h.keys_perm_of_promote hmark
  | revoke => exact hs.of_perm h.keys_perm_of_revoke hmark
  | expire k => exact hs.of_perm (h.keys_perm_of_expire hs) hmark
  | assign k =>
    cases h with
    | assign k hp hlt =>
      have hkeys : ({ L with pending := some k, mark := rank k } : Ledger κ).keys =
          k :: L.keys := by
        simp only [keys, hp, Option.toList_some, Option.toList_none, List.nil_append,
          List.cons_append]
      refine ⟨?_, ?_⟩
      · rw [hkeys, List.map_cons, List.nodup_cons]
        refine ⟨?_, hs.nodup⟩
        rintro hmem
        obtain ⟨j, hj, he⟩ := List.mem_map.mp hmem
        have := hs.bound j hj
        omega
      · rw [hkeys]
        intro j hj
        rcases List.mem_cons.mp hj with rfl | hj
        · exact le_rfl
        · exact (hs.bound j hj).trans hlt.le
  | discard k =>
    cases h with
    | discard k hk =>
      have hsub : ({ L with retired := L.retired.filter (· ≠ k) } : Ledger κ).keys.Sublist
          L.keys := List.filter_sublist.append_left _
      exact ⟨hs.nodup.sublist (hsub.map rank), fun j hj => hs.bound j (hsub.subset hj)⟩

/-- Only discarding that very key takes it out of custody. -/
theorem Step.mem_keys_of_mem (hs : Sound rank L) (h : Step rank L act L') (hk : k ∈ L.keys)
    (hne : act ≠ .discard k) : k ∈ L'.keys := by
  cases act with
  | idle => cases h; exact hk
  | promote j => exact h.keys_perm_of_promote.mem_iff.mpr hk
  | revoke => exact h.keys_perm_of_revoke.mem_iff.mpr hk
  | expire j => exact (h.keys_perm_of_expire hs).mem_iff.mpr hk
  | assign j =>
    cases h with
    | assign j hp hlt =>
      rw [mem_keys] at hk ⊢
      simp only [hp, reduceCtorEq, false_or] at hk
      exact Or.inr hk
  | discard j =>
    refine (h.mem_keys_of_discard hs).mpr ⟨hk, ?_⟩
    rintro rfl
    exact hne rfl

/-- Only assignment brings a key into custody. -/
theorem Step.mem_keys_or_assign (hs : Sound rank L) (h : Step rank L act L') (hk : k ∈ L'.keys) :
    k ∈ L.keys ∨ act = .assign k := by
  cases act with
  | idle => cases h; exact Or.inl hk
  | promote j => exact Or.inl (h.keys_perm_of_promote.mem_iff.mp hk)
  | revoke => exact Or.inl (h.keys_perm_of_revoke.mem_iff.mp hk)
  | expire j => exact Or.inl ((h.keys_perm_of_expire hs).mem_iff.mp hk)
  | discard j => exact Or.inl ((h.mem_keys_of_discard hs).mp hk).1
  | assign j =>
    cases h with
    | assign j hp hlt =>
      rw [mem_keys] at hk ⊢
      rcases hk with hk | hk
      · exact Or.inr (congrArg _ (Option.some.inj hk))
      · exact Or.inl (Or.inr hk)

/-- Only discarding that very key takes it out of retirement. -/
theorem Step.mem_retired_of_mem (h : Step rank L act L') (hk : k ∈ L.retired)
    (hne : act ≠ .discard k) : k ∈ L'.retired := by
  cases h with
  | idle | assign | promote => exact hk
  | revoke m hm => exact List.mem_append_left _ (List.mem_append_left _ hk)
  | expire j hj => exact List.mem_append_left _ hk
  | discard j hj =>
    refine List.mem_filter.mpr ⟨hk, decide_eq_true ?_⟩
    rintro rfl
    exact hne rfl

end Ledger

end Theyos

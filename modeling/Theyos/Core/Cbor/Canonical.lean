import Theyos.Core.Bytes.Framing
import Theyos.Core.Machine.Guard
import Mathlib.Data.List.Sort
import Mathlib.Data.List.Forall2
import Mathlib.Data.List.Chain

/-!
# CBOR values and their canonical form

A value tree as a CBOR library hands it out, and the recursive rewriting that sorts every map by
its keys and rejects a repeated key. The comparison of two keys is a parameter; on text keys it is
the length-first order.
-/

namespace Theyos.Cbor

/-- A decoded CBOR data item. -/
inductive Value where
  | integer (n : Int)
  | bytes (data : List UInt8)
  | float (bits : UInt64)
  | text (s : String)
  | bool (b : Bool)
  | null
  | tag (number : UInt64) (content : Value)
  | array (items : List Value)
  | map (entries : List (Value × Value))

/-- The canonical order of text keys: the shorter first, then bytewise. -/
def textOrder : String → String → Ordering :=
  compareLex (compareOn fun s => (textBytes s).length) (compareOn textBytes)

theorem textOrder_eq_eq {s t : String} : textOrder s t = .eq ↔ s = t := by
  simp only [textOrder, compareLex, compareOn, Ordering.then_eq_eq, Std.compare_eq_iff_eq]
  exact ⟨fun h => textBytes_injective h.2, fun h => by simp [h]⟩

instance : Std.TransCmp textOrder := by
  unfold textOrder
  infer_instance

/-- A comparison of keys that orders texts canonically. -/
def TextFirst (cmp : Value → Value → Ordering) : Prop :=
  ∀ s t, cmp (.text s) (.text t) = textOrder s t

section

variable (cmp : Value → Value → Ordering)

/-- A stable sort of map entries by their keys. -/
def sortEntries (entries : List (Value × Value)) : List (Value × Value) :=
  entries.insertionSort fun a b => (cmp a.1 b.1).isLE

mutual

/-- Rewrite every map of the tree to ascending keys; a repeated key refuses the tree. -/
def canonicalize : Value → Option Value
  | .array items => (canonicalizeItems items).map .array
  | .map entries => (canonicalizeEntries entries).bind fun entries =>
      if (sortEntries cmp entries).IsChain fun a b => cmp a.1 b.1 ≠ .eq then
        some (.map (sortEntries cmp entries))
      else none
  | .tag number content => (canonicalize content).map (.tag number)
  | v => some v

/-- The items of an array, each in canonical form. -/
def canonicalizeItems : List Value → Option (List Value)
  | [] => some []
  | v :: vs => do return (← canonicalize v) :: (← canonicalizeItems vs)

/-- The entries of a map, keys and values each in canonical form. -/
def canonicalizeEntries : List (Value × Value) → Option (List (Value × Value))
  | [] => some []
  | (k, v) :: rest => do return (← canonicalize k, ← canonicalize v) :: (← canonicalizeEntries rest)

end

end

/-- A struct field as a map entry. -/
def textEntry (field : String × Value) : Value × Value := (.text field.1, field.2)

/-- The trees of derived serializers, with nesting at most `d`. -/
inductive Storable : ℕ → Value → Prop
  | integer {d n} (h : n < 2 ^ 64) : Storable d (.integer (n : ℕ))
  | bytes {d} (data : List UInt8) : Storable d (.bytes data)
  | text {d} (s : String) : Storable d (.text s)
  | bool {d} (b : Bool) : Storable d (.bool b)
  | null {d} : Storable d .null
  | array {d} {items : List Value} (h : ∀ v ∈ items, Storable d v) :
      Storable (d + 1) (.array items)
  | map {d} {fields : List (String × Value)} (h : ∀ f ∈ fields, Storable d f.2) :
      Storable (d + 1) (.map (fields.map textEntry))

theorem Storable.mono {d e : ℕ} {v : Value} (h : Storable d v) (hde : d ≤ e) : Storable e v := by
  induction h generalizing e with
  | integer hn => exact .integer hn
  | bytes data | text s | bool b | null => constructor
  | array _ ih =>
    obtain ⟨e, rfl⟩ := Nat.exists_eq_add_of_lt (Nat.lt_of_succ_le hde)
    exact .array fun v hv => ih v hv (by omega)
  | map _ ih =>
    obtain ⟨e, rfl⟩ := Nat.exists_eq_add_of_lt (Nat.lt_of_succ_le hde)
    exact .map fun f hf => ih f hf (by omega)

theorem exists_left_of_forall₂ {α β : Type*} {R : α → β → Prop} {xs : List α}
    {ys : List β} (h : List.Forall₂ R xs ys) {y : β} (hy : y ∈ ys) : ∃ x ∈ xs, R x y := by
  obtain ⟨i, hi, rfl⟩ := List.getElem_of_mem hy
  have hx : i < xs.length := h.length_eq ▸ hi
  exact ⟨xs[i], List.getElem_mem hx, h.get hx hi⟩

section

variable {cmp : Value → Value → Ordering}

theorem canonicalizeItems_eq_some {items out : List Value} :
    canonicalizeItems cmp items = some out ↔
      List.Forall₂ (fun u v => canonicalize cmp u = some v) items out := by
  induction items generalizing out with
  | nil => simp [canonicalizeItems, eq_comm]
  | cons u items ih =>
    simp only [canonicalizeItems, Machine.eq_some_iff, List.forall₂_cons_left_iff, ih,
      exists_and_left, eq_comm (a := out)]

/-- A field whose value was rewritten under an unchanged name. -/
def Rewrites (cmp : Value → Value → Ordering) (f g : String × Value) : Prop :=
  f.1 = g.1 ∧ canonicalize cmp f.2 = some g.2

variable {fields : List (String × Value)}

theorem canonicalizeEntries_fields {out : List (Value × Value)} :
    canonicalizeEntries cmp (fields.map textEntry) = some out ↔
      ∃ rewritten, List.Forall₂ (Rewrites cmp) fields rewritten ∧
        out = rewritten.map textEntry := by
  induction fields generalizing out with
  | nil => simp [canonicalizeEntries, eq_comm]
  | cons f fields ih =>
    simp only [List.map_cons, textEntry, canonicalizeEntries, canonicalize, Machine.eq_some_iff]
    constructor
    · rintro ⟨_, ⟨⟩, v, hv, vs, hvs, rfl⟩
      obtain ⟨rewritten, hr, rfl⟩ := ih.mp hvs
      exact ⟨(f.1, v) :: rewritten, .cons ⟨rfl, hv⟩ hr, rfl⟩
    · rintro ⟨rewritten, hr, rfl⟩
      obtain ⟨g, rest, ⟨hname, hg⟩, hrest, rfl⟩ := List.forall₂_cons_left_iff.mp hr
      exact ⟨_, rfl, g.2, hg, _, ih.mpr ⟨rest, hrest, rfl⟩, by simp [textEntry, hname]⟩

/-- Fields in the canonical order of their names. -/
def FieldLE (f g : String × Value) : Prop := (textOrder f.1 g.1).isLE

instance : DecidableRel FieldLE := fun _ _ => inferInstanceAs (Decidable (_ = true))

instance : IsTrans (String × Value) FieldLE := ⟨fun _ _ _ => Std.TransCmp.isLE_trans⟩

instance : Std.Total FieldLE := ⟨fun f g => by
  rcases h : textOrder f.1 g.1 with _ | _ | _
  · exact .inl (by simp [FieldLE, h])
  · exact .inl (by simp [FieldLE, h])
  · exact .inr (by simp [FieldLE, Std.OrientedCmp.lt_of_gt h])⟩

section

variable (fields : List (String × Value))

/-- A struct's fields, sorted by name. -/
def sortFields : List (String × Value) :=
  fields.insertionSort FieldLE

theorem sortFields_perm : (sortFields fields).Perm fields :=
  List.perm_insertionSort _ _

theorem sortFields_sortFields : sortFields (sortFields fields) = sortFields fields :=
  (List.pairwise_insertionSort FieldLE fields).insertionSort_eq

end

theorem sortEntries_fields (h : TextFirst cmp) (fields : List (String × Value)) :
    sortEntries cmp (fields.map textEntry) = (sortFields fields).map textEntry :=
  (List.map_insertionSort FieldLE _ textEntry fields fun f _ g _ => by
    simp [FieldLE, textEntry, h f.1 g.1]).symm

theorem isChain_lt
    (hne : fields.IsChain fun f g => textOrder f.1 g.1 ≠ .eq) (hle : fields.Pairwise FieldLE) :
    fields.IsChain fun f g => textOrder f.1 g.1 = .lt := by
  induction hne with
  | nil => exact .nil
  | singleton f => exact .singleton f
  | @cons_cons f g _ hfg _ ih =>
    obtain ⟨hf, hrest⟩ := List.pairwise_cons.mp hle
    rcases h : textOrder f.1 g.1 with _ | _ | _ <;> simp_all [FieldLE]

/-- Sorted fields have distinct neighbours exactly when no name repeats. -/
theorem isChain_sortFields (fields : List (String × Value)) :
    ((sortFields fields).IsChain fun f g => textOrder f.1 g.1 ≠ .eq) ↔
      (fields.map Prod.fst).Nodup := by
  rw [← ((sortFields_perm fields).map Prod.fst).nodup_iff, List.Nodup, List.pairwise_map]
  have hsorted := List.pairwise_insertionSort FieldLE fields
  constructor
  · intro hne
    have hlt := isChain_lt hne hsorted
    have : IsTrans (String × Value) fun f g => textOrder f.1 g.1 = .lt :=
      ⟨fun _ _ _ => Std.TransCmp.lt_trans⟩
    exact hlt.pairwise.imp fun hlt heq => by simp [textOrder_eq_eq.mpr heq] at hlt
  · intro hne
    exact hne.isChain.imp fun f g hne heq => hne (textOrder_eq_eq.mp heq)

/-- The canonical form of a struct's map: its rewritten fields in the order of their names. -/
theorem canonicalize_fields (h : TextFirst cmp) {v : Value} :
    canonicalize cmp (.map (fields.map textEntry)) = some v ↔
      ∃ rewritten, List.Forall₂ (Rewrites cmp) fields rewritten ∧
        (rewritten.map Prod.fst).Nodup ∧ v = .map ((sortFields rewritten).map textEntry) := by
  have hchain (rewritten : List (String × Value)) :
      (((sortFields rewritten).map textEntry).IsChain fun a b => cmp a.1 b.1 ≠ .eq) ↔
        (rewritten.map Prod.fst).Nodup := by
    rw [List.isChain_map, ← isChain_sortFields]
    simp only [textEntry, h _ _]
  simp only [canonicalize, Option.bind_eq_some_iff, canonicalizeEntries_fields]
  constructor
  · rintro ⟨_, ⟨rewritten, hr, rfl⟩, hv⟩
    rw [sortEntries_fields h, Option.ite_none_right_eq_some, hchain, Option.some.injEq] at hv
    exact ⟨rewritten, hr, hv.1, hv.2.symm⟩
  · rintro ⟨rewritten, hr, hnodup, rfl⟩
    refine ⟨_, ⟨rewritten, hr, rfl⟩, ?_⟩
    rw [sortEntries_fields h, if_pos ((hchain rewritten).mpr hnodup)]

end

/-- The canonical form of a storable tree is storable and its own canonical form. -/
theorem Storable.canonicalize {cmp : Value → Value → Ordering} (h : TextFirst cmp) {d : ℕ}
    {u v : Value} (hu : Storable d u) (hv : Cbor.canonicalize cmp u = some v) :
    Storable d v ∧ Cbor.canonicalize cmp v = some v := by
  induction hu generalizing v with
  | integer hn => cases hv; exact ⟨.integer hn, rfl⟩
  | bytes data | text s | bool b | null => cases hv; exact ⟨by constructor, rfl⟩
  | @array d items _ ih =>
    simp only [Cbor.canonicalize, Option.map_eq_some_iff, canonicalizeItems_eq_some] at hv
    obtain ⟨out, hout, rfl⟩ := hv
    have hall : ∀ v ∈ out, Storable d v ∧ Cbor.canonicalize cmp v = some v := by
      intro v hv
      obtain ⟨u, hu, huv⟩ := exists_left_of_forall₂ hout hv
      exact ih u hu huv
    refine ⟨.array fun v hv => (hall v hv).1, ?_⟩
    simp only [Cbor.canonicalize, Option.map_eq_some_iff, canonicalizeItems_eq_some]
    exact ⟨out, List.forall₂_same.mpr fun v hv => (hall v hv).2, rfl⟩
  | @map d fields _ ih =>
    obtain ⟨rewritten, hr, hnodup, rfl⟩ := (canonicalize_fields h).mp hv
    have hall : ∀ g ∈ sortFields rewritten, Storable d g.2 ∧
        Cbor.canonicalize cmp g.2 = some g.2 := by
      intro g hg
      obtain ⟨f, hf, hfg⟩ := exists_left_of_forall₂ hr ((sortFields_perm rewritten).mem_iff.mp hg)
      exact ih f hf hfg.2
    refine ⟨.map fun g hg => (hall g hg).1, (canonicalize_fields h).mpr ?_⟩
    refine ⟨_, List.forall₂_same.mpr fun g hg => ⟨rfl, (hall g hg).2⟩, ?_, ?_⟩
    · exact ((sortFields_perm rewritten).map Prod.fst).nodup_iff.mpr hnodup
    · rw [sortFields_sortFields]

end Theyos.Cbor

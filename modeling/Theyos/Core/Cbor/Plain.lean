import Theyos.Core.Cbor.Wire

/-!
# Plain trees up to the order of their map entries

A plain tree has no null, tag or float, and its maps have distinct text keys. Two plain trees are
reorderings of each other when they differ at most in the order of map entries, at any depth.
-/

namespace Theyos.Cbor

/-- The trees without null, tag and float whose maps have distinct text keys. -/
inductive Plain : Value → Prop
  | integer (n : Int) : Plain (.integer n)
  | bytes (data : List UInt8) : Plain (.bytes data)
  | text (s : String) : Plain (.text s)
  | bool (b : Bool) : Plain (.bool b)
  | array {items : List Value} (h : ∀ v ∈ items, Plain v) : Plain (.array items)
  | map {fields : List (String × Value)} (hnames : (fields.map Prod.fst).Nodup)
      (h : ∀ f ∈ fields, Plain f.2) : Plain (.map (fields.map textEntry))

/-- Two trees that differ at most in the order of their map entries. -/
inductive Reordered : Value → Value → Prop
  | integer (n : Int) : Reordered (.integer n) (.integer n)
  | bytes (data : List UInt8) : Reordered (.bytes data) (.bytes data)
  | text (s : String) : Reordered (.text s) (.text s)
  | bool (b : Bool) : Reordered (.bool b) (.bool b)
  | array {us vs : List Value} (hlength : us.length = vs.length)
      (h : ∀ p ∈ us.zip vs, Reordered p.1 p.2) : Reordered (.array us) (.array vs)
  | map {fs gs : List (String × Value)} (hnames : (fs.map Prod.fst).Perm (gs.map Prod.fst))
      (h : ∀ f ∈ fs, ∀ g ∈ gs, f.1 = g.1 → Reordered f.2 g.2) :
      Reordered (.map (fs.map textEntry)) (.map (gs.map textEntry))

theorem textEntry_injective : Function.Injective textEntry := by
  rintro ⟨s, u⟩ ⟨t, v⟩ h
  simpa [textEntry] using h

theorem plain_array {items : List Value} : Plain (.array items) ↔ ∀ v ∈ items, Plain v :=
  ⟨fun | .array h => h, .array⟩

theorem plain_fields {fields : List (String × Value)} :
    Plain (.map (fields.map textEntry)) ↔
      (fields.map Prod.fst).Nodup ∧ ∀ f ∈ fields, Plain f.2 := by
  refine ⟨fun hplain => ?_, fun h => .map h.1 h.2⟩
  generalize hentries : fields.map textEntry = entries at hplain
  obtain _ | _ | _ | _ | _ | ⟨hnames, h⟩ := hplain
  cases textEntry_injective.list_map hentries
  exact ⟨hnames, h⟩

/-- Every plain tree has some nesting. -/
theorem Plain.exists_untagged {v : Value} (hv : Plain v) : ∃ d, Untagged d v := by
  have hbound {α : Type} (g : α → Value) (xs : List α) (h : ∀ x ∈ xs, ∃ d, Untagged d (g x)) :
      ∃ d, ∀ x ∈ xs, Untagged d (g x) := by
    induction xs with
    | nil => exact ⟨0, by simp⟩
    | cons x xs ih =>
      obtain ⟨d, hd⟩ := h x List.mem_cons_self
      obtain ⟨e, he⟩ := ih fun y hy => h y (List.mem_cons_of_mem x hy)
      refine ⟨max d e, fun y hy => ?_⟩
      rcases List.mem_cons.mp hy with rfl | hy
      · exact hd.mono (le_max_left d e)
      · exact (he y hy).mono (le_max_right d e)
  induction hv with
  | integer n | bytes data | text s | bool b => exact ⟨0, by constructor⟩
  | @array items _ ih =>
    obtain ⟨d, hd⟩ := hbound id items ih
    exact ⟨d + 1, .array hd⟩
  | @map fields _ _ ih =>
    obtain ⟨d, hd⟩ := hbound Prod.snd fields ih
    refine ⟨d + 1, .map (fun e he => ?_) fun e he => ?_⟩
    · obtain ⟨f, _, rfl⟩ := List.mem_map.mp he
      exact .text f.1
    · obtain ⟨f, hf, rfl⟩ := List.mem_map.mp he
      exact hd f hf

section

variable (cmp : Value → Value → Ordering)

mutual

/-- Sort the entries of every map of a tree by their keys. -/
def sortMaps : Value → Value
  | .map entries => .map (sortEntries cmp (sortMapsEntries entries))
  | .array items => .array (sortMapsItems items)
  | v => v

/-- The items of an array, each with its maps sorted. -/
def sortMapsItems : List Value → List Value
  | [] => []
  | v :: vs => sortMaps v :: sortMapsItems vs

/-- The entries of a map under their keys, each value with its maps sorted. -/
def sortMapsEntries : List (Value × Value) → List (Value × Value)
  | [] => []
  | (k, v) :: rest => (k, sortMaps v) :: sortMapsEntries rest

end

/-- A field with the maps of its value sorted. -/
def sortField (f : String × Value) : String × Value := (f.1, sortMaps cmp f.2)

variable (entries : List (Value × Value))

theorem sortEntries_perm : (sortEntries cmp entries).Perm entries :=
  List.perm_insertionSort _ _

theorem sortMapsItems_eq (items : List Value) :
    sortMapsItems cmp items = items.map (sortMaps cmp) := by
  induction items with
  | nil => rfl
  | cons v vs ih => simp [sortMapsItems, ih]

theorem sortMaps_array (items : List Value) :
    sortMaps cmp (.array items) = .array (items.map (sortMaps cmp)) := by
  rw [← sortMapsItems_eq]
  rfl

theorem sortMapsEntries_eq :
    sortMapsEntries cmp entries = entries.map fun e => (e.1, sortMaps cmp e.2) := by
  induction entries with
  | nil => rfl
  | cons e entries ih => simp [sortMapsEntries, ih]

theorem sortMaps_map :
    sortMaps cmp (.map entries) =
      .map (sortEntries cmp (entries.map fun e => (e.1, sortMaps cmp e.2))) := by
  rw [← sortMapsEntries_eq]
  rfl

theorem sortMaps_textEntries (fields : List (String × Value)) :
    sortMaps cmp (.map (fields.map textEntry)) =
      .map (sortEntries cmp ((fields.map (sortField cmp)).map textEntry)) := by
  rw [sortMaps_map, List.map_map, List.map_map]
  rfl

theorem map_fst_sortField (fields : List (String × Value)) :
    (fields.map (sortField cmp)).map Prod.fst = fields.map Prod.fst := by
  simp [sortField, Function.comp_def]

theorem mem_sortFields {fields : List (String × Value)} {g : String × Value} :
    g ∈ sortFields (fields.map (sortField cmp)) ↔ ∃ f ∈ fields, sortField cmp f = g :=
  (sortFields_perm _).mem_iff.trans List.mem_map

variable {v : Value}

/-- Sorting the maps keeps the nesting. -/
theorem Untagged.sortMaps {d : ℕ} (hv : Untagged d v) :
    Untagged d (sortMaps cmp v) := by
  induction hv with
  | integer n | bytes data | text s | bool b | null => constructor
  | array _ ih =>
    rw [sortMaps_array]
    refine .array fun v hv => ?_
    obtain ⟨u, hu, rfl⟩ := List.mem_map.mp hv
    exact ih u hu
  | @map d entries hkey _ _ ih =>
    rw [sortMaps_map]
    refine .map (fun e he => ?_) fun e he => ?_
    · obtain ⟨f, hf, rfl⟩ := List.mem_map.mp ((sortEntries_perm cmp _).mem_iff.mp he)
      exact hkey f hf
    · obtain ⟨f, hf, rfl⟩ := List.mem_map.mp ((sortEntries_perm cmp _).mem_iff.mp he)
      exact ih f hf

end

/-- Fields with distinct names are sorted the same way in every order. -/
theorem sortFields_eq_of_perm {fs gs : List (String × Value)} (hnames : (fs.map Prod.fst).Nodup)
    (hperm : fs.Perm gs) : sortFields fs = sortFields gs := by
  have hsorted := (sortFields_perm fs).trans (hperm.trans (sortFields_perm gs).symm)
  refine hsorted.eq_of_pairwise (fun f g hf hg hfg hgf => ?_)
    (List.pairwise_insertionSort FieldLE fs) (List.pairwise_insertionSort FieldLE gs)
  have heq : textOrder f.1 g.1 = .eq := Std.OrientedCmp.isLE_antisymm hfg hgf
  have hf := (sortFields_perm fs).mem_iff.mp hf
  have hg := hperm.mem_iff.mpr ((sortFields_perm gs).mem_iff.mp hg)
  exact List.inj_on_of_nodup_map hnames hf hg (textOrder_eq_eq.mp heq)

section

variable {cmp : Value → Value → Ordering} (hcmp : TextFirst cmp)

include hcmp

theorem sortMaps_fields (fields : List (String × Value)) :
    sortMaps cmp (.map (fields.map textEntry)) =
      .map ((sortFields (fields.map (sortField cmp))).map textEntry) := by
  rw [sortMaps_textEntries, sortEntries_fields hcmp]

/-- Sorting the maps of a plain tree gives a plain tree. -/
theorem Plain.sortMaps (hv : Plain v) : Plain (sortMaps cmp v) := by
  induction hv with
  | integer n | bytes data | text s | bool b => constructor
  | array _ ih =>
    rw [sortMaps_array]
    refine .array fun v hv => ?_
    obtain ⟨u, hu, rfl⟩ := List.mem_map.mp hv
    exact ih u hu
  | @map fields hnames _ ih =>
    rw [sortMaps_fields hcmp]
    have hperm := (sortFields_perm (fields.map (sortField cmp))).map Prod.fst
    rw [map_fst_sortField] at hperm
    refine .map (hperm.nodup_iff.mpr hnames) fun g hg => ?_
    obtain ⟨f, hf, rfl⟩ := (mem_sortFields cmp).mp hg
    exact ih f hf

/-- A plain tree is accepted by the strict canonicalization, which sorts its maps. -/
theorem Plain.canonicalize (hv : Plain v) :
    canonicalize cmp v = some (Cbor.sortMaps cmp v) := by
  induction hv with
  | integer n | bytes data | text s | bool b => rfl
  | @array items _ ih =>
    rw [Cbor.canonicalize, sortMaps_array, Option.map_eq_some_iff]
    refine ⟨_, canonicalizeItems_eq_some.mpr ?_, rfl⟩
    exact List.forall₂_map_right_iff.mpr (List.forall₂_same.mpr ih)
  | @map fields hnames _ ih =>
    rw [sortMaps_fields hcmp, canonicalize_fields hcmp]
    refine ⟨_, ?_, by rwa [map_fst_sortField], rfl⟩
    exact List.forall₂_map_right_iff.mpr (List.forall₂_same.mpr fun f hf => ⟨rfl, ih f hf⟩)

/-- Sorting the maps again changes nothing. -/
theorem Plain.sortMaps_sortMaps (hv : Plain v) :
    Cbor.sortMaps cmp (Cbor.sortMaps cmp v) = Cbor.sortMaps cmp v := by
  induction hv with
  | integer n | bytes data | text s | bool b => rfl
  | @array items _ ih =>
    simp only [sortMaps_array, List.map_map, Value.array.injEq]
    exact List.map_congr_left ih
  | @map fields _ _ ih =>
    rw [sortMaps_fields hcmp, sortMaps_fields hcmp]
    have hfixed : (sortFields (fields.map (sortField cmp))).map (sortField cmp) =
        sortFields (fields.map (sortField cmp)) := by
      refine (List.map_congr_left fun g hg => ?_).trans (List.map_id _)
      obtain ⟨f, hf, rfl⟩ := (mem_sortFields cmp).mp hg
      exact Prod.ext rfl (ih f hf)
    rw [hfixed, sortFields_sortFields]

/-- Reorderings of one plain tree have the same sorted maps. -/
theorem Reordered.sortMaps_eq {u v : Value} (h : Reordered u v) (hu : Plain u) (hv : Plain v) :
    Cbor.sortMaps cmp u = Cbor.sortMaps cmp v := by
  induction h with
  | integer n | bytes data | text s | bool b => rfl
  | @array us vs hlength _ ih =>
    simp only [sortMaps_array, Value.array.injEq]
    refine List.ext_getElem (by simpa using hlength) fun i hi hi' => ?_
    rw [List.length_map] at hi hi'
    have hmem : (us[i], vs[i]) ∈ us.zip vs := List.mem_iff_getElem.mpr ⟨i, by simp [hi, hi'], by simp⟩
    simpa using ih _ hmem (plain_array.mp hu _ (List.getElem_mem hi))
      (plain_array.mp hv _ (List.getElem_mem hi'))
  | @map fs gs hnames _ ih =>
    obtain ⟨hfs, hplain⟩ := plain_fields.mp hu
    obtain ⟨hgs, hplain'⟩ := plain_fields.mp hv
    rw [sortMaps_fields hcmp, sortMaps_fields hcmp]
    have hnodup := (map_fst_sortField cmp fs).symm ▸ hfs
    have hnodup' := (map_fst_sortField cmp gs).symm ▸ hgs
    have hsame {f g : String × Value} (hf : f ∈ fs) (hg : g ∈ gs) (h : f.1 = g.1) :
        sortField cmp f = sortField cmp g :=
      Prod.ext h (ih f hf g hg h (hplain f hf) (hplain' g hg))
    have hperm : (fs.map (sortField cmp)).Perm (gs.map (sortField cmp)) := by
      refine (List.perm_ext_iff_of_nodup (.of_map _ hnodup) (.of_map _ hnodup')).mpr fun p => ?_
      simp only [List.mem_map]
      constructor
      · rintro ⟨f, hf, rfl⟩
        obtain ⟨g, hg, hfg⟩ := List.mem_map.mp (hnames.mem_iff.mp (List.mem_map_of_mem hf))
        exact ⟨g, hg, (hsame hf hg hfg.symm).symm⟩
      · rintro ⟨g, hg, rfl⟩
        obtain ⟨f, hf, hfg⟩ := List.mem_map.mp (hnames.mem_iff.mpr (List.mem_map_of_mem hg))
        exact ⟨f, hf, hsame hf hg hfg⟩
    rw [sortFields_eq_of_perm hnodup hperm]

/-- Plain trees with the same sorted maps are reorderings of each other. -/
theorem Plain.reordered_of_sortMaps_eq {u v : Value} (hu : Plain u) (hv : Plain v)
    (h : Cbor.sortMaps cmp u = Cbor.sortMaps cmp v) : Reordered u v := by
  induction hu generalizing v with
  | integer n | bytes data | text s | bool b => cases hv <;> cases h; constructor
  | @array us _ ih =>
    cases hv with
    | @array vs hvs =>
      simp only [sortMaps_array, Value.array.injEq] at h
      have hlength : us.length = vs.length := by simpa using congrArg List.length h
      refine .array hlength fun p hp => ?_
      obtain ⟨i, hi, rfl⟩ := List.mem_iff_getElem.mp hp
      rw [List.length_zip] at hi
      have hitem := congrArg (·[i]?) h
      rw [List.getElem_zip]
      refine ih _ (List.getElem_mem _) (hvs _ (List.getElem_mem _)) ?_
      simpa [List.getElem?_eq_getElem (show i < us.length by omega),
        List.getElem?_eq_getElem (show i < vs.length by omega)] using hitem
    | _ => cases h
  | @map fs hfs _ ih =>
    cases hv with
    | @map gs hgs hplain =>
      rw [sortMaps_fields hcmp, sortMaps_fields hcmp, Value.map.injEq] at h
      have hsorted := textEntry_injective.list_map h
      have hperm : (fs.map (sortField cmp)).Perm (gs.map (sortField cmp)) :=
        (sortFields_perm _).symm.trans (hsorted ▸ sortFields_perm _)
      have hnames := hperm.map Prod.fst
      rw [map_fst_sortField, map_fst_sortField] at hnames
      refine .map hnames fun f hf g hg hname => ih f hf (hplain g hg) ?_
      have hnodup := (map_fst_sortField cmp fs).symm ▸ hfs
      have hg' := hperm.mem_iff.mpr (List.mem_map_of_mem hg)
      have heq := List.inj_on_of_nodup_map hnodup (List.mem_map_of_mem hf) hg' hname
      exact congrArg Prod.snd heq
    | _ => cases h

end

section

theorem isSome_append {x y : Option (List UInt8)} :
    (do return (← x) ++ (← y) : Option (List UInt8)).isSome ↔ x.isSome ∧ y.isSome := by
  cases x <;> cases y <;> simp

theorem isSome_append₂ {x y z : Option (List UInt8)} :
    (do return (← x) ++ ((← y) ++ (← z)) : Option (List UInt8)).isSome ↔
      (x.isSome ∧ y.isSome) ∧ z.isSome := by
  cases x <;> cases y <;> cases z <;> simp

theorem isSome_encode_array {items : List Value} :
    (encode (.array items)).isSome ↔
      (head 4 items.length).isSome ∧ ∀ v ∈ items, (encode v).isSome := by
  have hitems : (encodeItems items).isSome ↔ ∀ v ∈ items, (encode v).isSome := by
    induction items with
    | nil => simp [encodeItems]
    | cons v vs ih => rw [encodeItems, isSome_append, ih, List.forall_mem_cons]
  rw [encode, isSome_append, hitems]

theorem isSome_encode_map {entries : List (Value × Value)} :
    (encode (.map entries)).isSome ↔ (head 5 entries.length).isSome ∧
      ∀ e ∈ entries, (encode e.1).isSome ∧ (encode e.2).isSome := by
  have hentries : (encodeEntries entries).isSome ↔
      ∀ e ∈ entries, (encode e.1).isSome ∧ (encode e.2).isSome := by
    induction entries with
    | nil => simp [encodeEntries]
    | cons e es ih => rw [encodeEntries, isSome_append₂, ih, List.forall_mem_cons]
  rw [encode, isSome_append, hentries]

/-- A tree has an encoding exactly when its sorted form has one. -/
theorem Plain.isSome_encode_sortMaps (cmp : Value → Value → Ordering) (hv : Plain v) :
    (encode (Cbor.sortMaps cmp v)).isSome ↔ (encode v).isSome := by
  induction hv with
  | integer n | bytes data | text s | bool b => rfl
  | array _ ih =>
    rw [sortMaps_array, isSome_encode_array, isSome_encode_array, List.length_map,
      List.forall_mem_map]
    exact and_congr_right fun _ => forall₂_congr ih
  | @map fields _ _ ih =>
    have hperm := sortEntries_perm cmp ((fields.map (sortField cmp)).map textEntry)
    rw [sortMaps_textEntries, isSome_encode_map, isSome_encode_map, hperm.length_eq]
    simp only [hperm.mem_iff, List.forall_mem_map, List.length_map]
    exact and_congr_right fun _ => forall₂_congr fun f hf => and_congr_right fun _ => ih f hf

/-- Orders that agree on the keys that have an encoding sort a tree the same way. -/
theorem Plain.sortMaps_congr {cmp cmp' : Value → Value → Ordering}
    (h : ∀ s t, (encode (.text s)).isSome → (encode (.text t)).isSome →
      cmp (.text s) (.text t) = cmp' (.text s) (.text t)) (hv : Plain v)
    (hsome : (encode v).isSome) : Cbor.sortMaps cmp v = Cbor.sortMaps cmp' v := by
  induction hv with
  | integer n | bytes data | text s | bool b => rfl
  | array _ ih =>
    rw [sortMaps_array, sortMaps_array]
    have hitems := (isSome_encode_array.mp hsome).2
    rw [List.map_congr_left fun v hv => ih v hv (hitems v hv)]
  | @map fields _ _ ih =>
    have hentries := (isSome_encode_map.mp hsome).2
    simp only [List.forall_mem_map] at hentries
    have hfields : fields.map (sortField cmp) = fields.map (sortField cmp') :=
      List.map_congr_left fun f hf => Prod.ext rfl (ih f hf (hentries f hf).2)
    rw [sortMaps_textEntries, sortMaps_textEntries, hfields]
    have hkey {e : Value × Value} (he : e ∈ (fields.map (sortField cmp')).map textEntry) :
        ∃ s, e.1 = .text s ∧ (encode (.text s)).isSome := by
      simp only [List.map_map, List.mem_map] at he
      obtain ⟨f, hf, rfl⟩ := he
      exact ⟨f.1, rfl, (hentries f hf).1⟩
    have hsort := List.map_insertionSort (fun a b => (cmp a.1 b.1).isLE)
      (fun a b => (cmp' a.1 b.1).isLE) id ((fields.map (sortField cmp')).map textEntry)
      fun a ha b hb => by
        obtain ⟨s, hs, hsome⟩ := hkey ha
        obtain ⟨t, ht, hsome'⟩ := hkey hb
        rw [id, id, hs, ht, h s t hsome hsome']
    rw [List.map_id, List.map_id] at hsort
    rw [sortEntries, sortEntries, hsort]

end

end Theyos.Cbor

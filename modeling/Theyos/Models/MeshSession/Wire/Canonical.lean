import Theyos.Models.MeshSession.Wire.Cbor

/-!
# Canonical bytes and the trees they stand for

Over a library that writes shortest definite encodings, the checker accepts the bytes of a plain
tree exactly in the order of their encoded keys, which is length first. Every accepted byte string
therefore stands for one plain tree up to the order of map entries.
-/

namespace Theyos.MeshSession

open Cbor Machine

/-- The reference order of text keys, length first. -/
abbrev keyOrder : Value → Value → Ordering := deterministic.canonicalCmp

theorem keyOrder_textFirst : TextFirst keyOrder := deterministic_lawful.textFirst

variable {L : Library}

theorem verifyCanonical_eq_ok {bytes : List UInt8} :
    verifyCanonical L bytes = .ok () ↔
      ∃ v, L.fromReader bytes = some (v, bytes.length) ∧ rejectDisallowed L v = .ok () ∧
        L.intoWriter (canonicalize L v) = some bytes := by
  simp only [verifyCanonical, eq_ok_iff]
  grind

theorem rejectDisallowedItems_ok {items : List Value}
    (h : ∀ v ∈ items, rejectDisallowed L v = .ok ()) : rejectDisallowedItems L items = .ok () := by
  induction items with
  | nil => rfl
  | cons v items ih =>
    simp only [rejectDisallowedItems, bind_eq_ok]
    exact ⟨(), h v List.mem_cons_self, ih fun u hu => h u (List.mem_cons_of_mem v hu)⟩

theorem rejectDisallowedEntries_ok {fields : List (String × Value)}
    (hkeys : (fields.map fun f => encodeKey L (.text f.1)).Nodup)
    (h : ∀ f ∈ fields, rejectDisallowed L f.2 = .ok ()) {seen : List (List UInt8)}
    (hseen : ∀ f ∈ fields, encodeKey L (.text f.1) ∉ seen) :
    rejectDisallowedEntries L seen (fields.map textEntry) = .ok () := by
  induction fields generalizing seen with
  | nil => rfl
  | cons f fields ih =>
    obtain ⟨hnew, hkeys⟩ := List.nodup_cons.mp hkeys
    simp only [List.map_cons, textEntry, rejectDisallowedEntries, eq_ok_iff]
    refine ⟨by simp [Value.asText], rfl, hseen f List.mem_cons_self, h f List.mem_cons_self, ?_⟩
    refine ih hkeys (fun g hg => h g (List.mem_cons_of_mem f hg)) fun g hg hmem => ?_
    rcases List.mem_cons.mp hmem with heq | hmem
    · exact hnew (List.mem_map.mpr ⟨g, hg, heq⟩)
    · exact hseen g (List.mem_cons_of_mem f hg) hmem

section

variable {L : Library} {limit : ℕ∞} (hL : L.Deterministic limit)

include hL

theorem encodeKey_text {s : String} {data : List UInt8}
    (h : encode (.text s) = some data) : encodeKey L (.text s) = data := by
  have huntagged : Untagged 0 (.text s) := .text s
  simp [encodeKey, hL.intoWriter_eq huntagged, h]

/-- On text keys the order of the encodings is length first. -/
theorem compare_encodeKey {s t : String} (hs : (encode (.text s)).isSome)
    (ht : (encode (.text t)).isSome) :
    compareOn (encodeKey L) (.text s) (.text t) = keyOrder (.text s) (.text t) := by
  obtain ⟨data, hdata⟩ := Option.isSome_iff_exists.mp hs
  obtain ⟨data', hdata'⟩ := Option.isSome_iff_exists.mp ht
  rw [compareOn, encodeKey_text hL hdata, encodeKey_text hL hdata',
    compare_encode_text hdata hdata', keyOrder_textFirst]

variable {v : Value}

/-- A plain tree that has an encoding is sorted length first. -/
theorem canonicalize_eq (hv : Plain v) (hsome : (encode v).isSome) :
    canonicalize L v = sortMaps keyOrder v :=
  hv.sortMaps_congr (fun _ _ => compare_encodeKey hL) hsome

theorem encodeKey_nodup {fields : List (String × Value)}
    (hnames : (fields.map Prod.fst).Nodup) (hsome : ∀ f ∈ fields, (encode (.text f.1)).isSome) :
    (fields.map fun f => encodeKey L (.text f.1)).Nodup := by
  rw [List.Nodup, List.pairwise_map] at hnames ⊢
  refine hnames.imp_of_mem fun {f g} hf hg hne heq => hne ?_
  have hcompare := compare_encodeKey hL (hsome f hf) (hsome g hg)
  rw [compareOn, heq] at hcompare
  exact textOrder_eq_eq.mp (hcompare.symm.trans (by simp))

/-- A plain tree that has an encoding passes the rejection pass. -/
theorem rejectDisallowed_plain (hv : Plain v) (hsome : (encode v).isSome) :
    rejectDisallowed L v = .ok () := by
  induction hv with
  | integer n | bytes data | text s | bool b => rfl
  | array _ ih =>
    have hsome := (isSome_encode_array.mp hsome).2
    exact rejectDisallowedItems_ok fun v hv => ih v hv (hsome v hv)
  | @map fields hnames _ ih =>
    have hsome := (isSome_encode_map.mp hsome).2
    simp only [List.forall_mem_map] at hsome
    exact rejectDisallowedEntries_ok (encodeKey_nodup hL hnames fun f hf => (hsome f hf).1)
      (fun f hf => ih f hf (hsome f hf).2) fun _ _ => List.not_mem_nil

/-- Accepted bytes are the encoding of the sorted form of the tree they decode to. -/
theorem verifyCanonical_inv {bytes : List UInt8} (h : verifyCanonical L bytes = .ok ()) :
    ∃ v, L.fromReader bytes = some (v, bytes.length) ∧ Plain v ∧
      canonicalize L v = sortMaps keyOrder v ∧ encode (sortMaps keyOrder v) = some bytes := by
  obtain ⟨v, hread, hallowed, hwrite⟩ := verifyCanonical_eq_ok.mp h
  have hplain := plain_of_rejectDisallowed hallowed
  obtain ⟨d, hd⟩ := hplain.exists_untagged
  rw [canonicalize, hL.intoWriter_eq (hd.sortMaps _)] at hwrite
  have hsome : (encode v).isSome :=
    (hplain.isSome_encode_sortMaps _).mp (Option.isSome_iff_exists.mpr ⟨bytes, hwrite⟩)
  have heq := canonicalize_eq hL hplain hsome
  exact ⟨v, hread, hplain, heq, heq ▸ hwrite⟩

/-- The encoding of a sorted plain tree is accepted. -/
theorem verifyCanonical_sorted {d : ℕ} (hv : Plain v) (hd : Untagged d v)
    (hlimit : (d : ℕ∞) ≤ limit) {bytes : List UInt8}
    (h : encode (sortMaps keyOrder v) = some bytes) : verifyCanonical L bytes = .ok () := by
  have hsorted := hv.sortMaps keyOrder_textFirst
  have hsome : (encode (sortMaps keyOrder v)).isSome := Option.isSome_iff_exists.mpr ⟨bytes, h⟩
  refine verifyCanonical_eq_ok.mpr ⟨_, hL.fromReader_encode (hd.sortMaps _) hlimit h,
    rejectDisallowed_plain hL hsorted hsome, ?_⟩
  rw [canonicalize_eq hL hsorted hsome, hv.sortMaps_sortMaps keyOrder_textFirst,
    hL.intoWriter_eq (hd.sortMaps _), h]

section

variable {α : Type} {S : Serde α} {c : Codec α} (hS : S.Reads L limit c) (hc : c.Faithful)

include hS hc

variable {bytes : List UInt8}

variable (hdepth : (c.depth : ℕ∞) ≤ limit)

include hdepth

/-- A value's canonical bytes are the encoding of its sorted tree. -/
theorem toCanonicalVec_eq_ok {a : α} :
    toCanonicalVec L S a = .ok bytes ↔ encode (sortMaps keyOrder (c.enc a)) = some bytes := by
  have hd := (c.storable a).untagged
  have hplain := hc.plain a
  simp only [toCanonicalVec, eq_ok_iff, hS.intoWriter_eq, hL.intoWriter_eq hd]
  constructor
  · rintro ⟨raw, hraw, ⟨v, n⟩, hread, _, hwrite⟩
    rw [hL.fromReader_encode hd hdepth hraw] at hread
    cases hread
    rwa [canonicalize_eq hL hplain (Option.isSome_iff_exists.mpr ⟨raw, hraw⟩),
      hL.intoWriter_eq (hd.sortMaps _)] at hwrite
  · intro h
    have hsome : (encode (c.enc a)).isSome :=
      (hplain.isSome_encode_sortMaps _).mp (Option.isSome_iff_exists.mpr ⟨bytes, h⟩)
    obtain ⟨raw, hraw⟩ := Option.isSome_iff_exists.mp hsome
    refine ⟨raw, hraw, _, hL.fromReader_encode hd hdepth hraw,
      rejectDisallowed_plain hL hplain hsome, ?_⟩
    rw [canonicalize_eq hL hplain hsome, hL.intoWriter_eq (hd.sortMaps _), h]

/-- A value is read back from its canonical bytes. -/
theorem fromCanonicalBytes_toCanonicalVec {a : α} (h : toCanonicalVec L S a = .ok bytes) :
    verifyCanonical L bytes = .ok () ∧ fromCanonicalBytes L S bytes = .ok a := by
  rw [toCanonicalVec_eq_ok hL hS hc hdepth] at h
  have hd := (c.storable a).untagged
  have hplain := hc.plain a
  have hverify := verifyCanonical_sorted hL hplain hd hdepth h
  obtain ⟨v, hv, hdec⟩ := c.round keyOrder_textFirst a
  rw [hplain.canonicalize keyOrder_textFirst] at hv
  cases hv
  have hread := hS.fromReader_complete (hplain.sortMaps keyOrder_textFirst) (hd.sortMaps _)
    hdepth h hdec
  simp only [fromCanonicalBytes, eq_ok_iff]
  exact ⟨hverify, hverify, hread⟩

/-- Accepted bytes are the canonical bytes of what is read from them exactly when their tree
asks for no coercion. -/
theorem toCanonicalVec_fromCanonicalBytes {a : α}
    (hdirect : Direct (c.enc a)) {v : Value} {n : ℕ} (h : fromCanonicalBytes L S bytes = .ok a)
    (hv : L.fromReader bytes = some (v, n)) :
    toCanonicalVec L S a = .ok bytes ↔ Direct v := by
  simp only [fromCanonicalBytes, eq_ok_iff] at h
  obtain ⟨hverify, hread⟩ := h
  obtain ⟨w, hw, hplain, _, hbytes⟩ := verifyCanonical_inv hL hverify
  obtain ⟨rfl, rfl⟩ : w = v ∧ bytes.length = n := by simpa using hw.symm.trans hv
  have hsorted := hplain.sortMaps keyOrder_textFirst
  have hidem := hplain.sortMaps_sortMaps keyOrder_textFirst
  rw [toCanonicalVec_eq_ok hL hS hc hdepth]
  constructor
  · intro h
    obtain ⟨d, hd⟩ := hplain.exists_untagged
    have heq := ((c.storable a).untagged.sortMaps keyOrder).encode_inj (hd.sortMaps keyOrder) h hbytes
    exact hdirect.reordered ((hc.plain a).reordered_of_sortMaps_eq keyOrder_textFirst hplain heq)
  · intro hdir
    have hdec := hS.fromReader_sound hsorted hbytes hread
    have hdir := hdir.reordered
      (hplain.reordered_of_sortMaps_eq keyOrder_textFirst hsorted hidem.symm)
    have hr := hc.exact hsorted hdir hdirect hdec
    rw [← hr.sortMaps_eq keyOrder_textFirst hsorted (hc.plain a), hidem, hbytes]

end

end

end Theyos.MeshSession

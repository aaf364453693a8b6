import Theyos.Models.MeshControl.Store.Format
import Theyos.Models.MeshSession.Wire.Canonical
import Theyos.Models.TunnelWire.Frame

/-!
# One canonical form for three encoders

The tunnel sorts the entries of a map by the encodings of their keys, as the session core does; the
control model sorts them length first and refuses a repeated key. Over a library with shortest
encodings the three write the same bytes for every plain tree.
-/

namespace Theyos.TunnelWire

open Cbor Machine MeshSession

section

variable (L : Library)

/-- A failure of the library; its own text after the context is left out. -/
def cborErr (context : String) : WireError := .cbor context

def canonicalKeyBytes (v : Value) : Except WireError (List UInt8) :=
  okOr (L.intoWriter v) (cborErr "canonical map key encode")

mutual

/-- Sort the entries of every map by the encodings of their sorted keys. -/
def canonicalizeValue : Value → Except WireError Value
  | .array items => do return .array (← canonicalizeItems items)
  | .map entries => do
    let keyed ← canonicalizeEntries entries
    let sorted := keyed.insertionSort fun a b => (compare a.1 b.1).isLE
    return .map (sorted.map Prod.snd)
  | .tag number inner => do return .tag number (← canonicalizeValue inner)
  | v => return v

/-- The items of an array. -/
def canonicalizeItems : List Value → Except WireError (List Value)
  | [] => return []
  | v :: items => do return (← canonicalizeValue v) :: (← canonicalizeItems items)

/-- The entries of a map, each behind the encoding of its key. -/
def canonicalizeEntries : List (Value × Value) → Except WireError (List (List UInt8 × Value × Value))
  | [] => return []
  | (k, v) :: entries => do
    let key ← canonicalizeValue k
    let value ← canonicalizeValue v
    let keyBytes ← canonicalKeyBytes L key
    return (keyBytes, key, value) :: (← canonicalizeEntries entries)

end

variable {α : Type} (S : Serde α)

/-- Encode a value as canonical bytes. -/
def toCanonicalVec (value : α) : Except WireError (List UInt8) := do
  let initial ← okOr (S.intoWriter value) (cborErr "encode")
  let (parsed, _) ← okOr (L.fromReader initial) (cborErr "canonical value decode")
  let sorted ← canonicalizeValue L parsed
  okOr (L.intoWriter sorted) (cborErr "canonical value encode")

/-- Decode bytes, canonical or not. -/
def fromCanonicalSlice (bytes : List UInt8) : Except WireError α :=
  okOr (S.fromReader bytes) (cborErr "decode")

/-- Decode exactly the bytes that the value read from them is encoded as. -/
def fromCanonicalSliceStrict (bytes : List UInt8) : Except WireError α := do
  let value ← fromCanonicalSlice S bytes
  let reEncoded ← toCanonicalVec L S value
  let (input, canonical) := (bytes.length, reEncoded.length)
  require (reEncoded = bytes)
    (.cbor s!"non-canonical encoding: {input} input bytes vs {canonical} canonical bytes")
  return value

end

variable (L : Library) (cmp : Value → Value → Ordering)

/-- The writer and reader of trees themselves. -/
def treeSerde : Serde Value where
  intoWriter := L.intoWriter
  fromReader bytes := (L.fromReader bytes).map Prod.fst

/-- The library with its own order of keys. -/
def withOrder : Ciborium where
  intoWriter := L.intoWriter
  fromReader := (treeSerde L).fromReader
  canonicalCmp := cmp

/-- The encoding of a sorted tree, if the tree is written and read back at all. -/
def canonicalBytes (v : Value) : Option (List UInt8) := do
  let raw ← encode v
  let _ ← L.fromReader raw
  encode (sortMaps keyOrder v)

/-- Each encoder sorts the tree to the same tree. -/
structure SortsTo (v w : Value) : Prop where
  tunnel : canonicalizeValue L v = .ok w
  core : MeshSession.canonicalize L v = w
  control : MeshControl.canonicalizeValue (withOrder L cmp) v = some w

/-- Each encoder writes these bytes for the tree; the control model for every record that is
written as the tree. -/
structure EncodersWrite (v : Value) (bytes? : Option (List UInt8)) : Prop where
  tunnel : (toCanonicalVec L (treeSerde L) v).toOption = bytes?
  core : (MeshSession.toCanonicalVec L (treeSerde L) v).toOption = bytes?
  control : ∀ S rec, S.intoWriter rec = L.intoWriter v →
    MeshControl.toCanonicalBytes (withOrder L cmp) S rec = bytes?

theorem toOption_bind {ε α β : Type} (x : Except ε α) (f : α → Except ε β) :
    (x >>= f).toOption = x.toOption.bind fun a => (f a).toOption := by
  cases x <;> rfl

theorem toOption_okOr {ε α : Type} (o : Option α) (e : ε) : (okOr o e).toOption = o := by
  cases o <;> rfl

theorem toOption_eq_some {ε α : Type} {x : Except ε α} {a : α} :
    x.toOption = some a ↔ x = .ok a := by
  cases x <;> simp [Except.toOption]

variable {L} in
theorem fromCanonicalSliceStrict_eq_ok {α : Type} {S : Serde α} {bytes : List UInt8} {a : α} :
    fromCanonicalSliceStrict L S bytes = .ok a ↔
      S.fromReader bytes = some a ∧ toCanonicalVec L S a = .ok bytes := by
  simp only [fromCanonicalSliceStrict, fromCanonicalSlice, eq_ok_iff]
  grind

section

variable {L : Library} {limit : ℕ∞} (hL : L.Exact limit)

include hL

theorem canonicalKeyBytes_text {s : String} (h : (encode (.text s)).isSome) :
    canonicalKeyBytes L (.text s) = .ok (encodeKey L (.text s)) := by
  obtain ⟨data, hdata⟩ := Option.isSome_iff_exists.mp h
  have huntagged : Untagged 0 (.text s) := .text s
  simp [canonicalKeyBytes, encodeKey, hL.intoWriter_eq huntagged, hdata, okOr]

/-- The tunnel sorts a plain tree that has an encoding as the session core does. -/
theorem canonicalizeValue_eq {v : Value} (hv : Plain v) (hsome : (encode v).isSome) :
    canonicalizeValue L v = .ok (MeshSession.canonicalize L v) := by
  induction hv with
  | integer n | bytes data | text s | bool b => rfl
  | @array items _ ih =>
    have hsome := (isSome_encode_array.mp hsome).2
    have hitems : canonicalizeItems L items = .ok (items.map (MeshSession.canonicalize L)) := by
      clear * - ih hsome
      induction items with
      | nil => rfl
      | cons v items ihs =>
        obtain ⟨hv, hvs⟩ := List.forall_mem_cons.mp hsome
        rw [canonicalizeItems, ih v List.mem_cons_self hv,
          ihs (fun u hu => ih u (List.mem_cons_of_mem v hu)) hvs]
        rfl
    rw [canonicalizeValue, hitems, MeshSession.canonicalize, sortMaps_array]
    rfl
  | @map fields _ _ ih =>
    have hsome := (isSome_encode_map.mp hsome).2
    simp only [List.forall_mem_map] at hsome
    let keyed (f : String × Value) : List UInt8 × Value × Value :=
      (encodeKey L (.text f.1), .text f.1, MeshSession.canonicalize L f.2)
    have hentries : canonicalizeEntries L (fields.map textEntry) = .ok (fields.map keyed) := by
      clear * - ih hsome hL
      induction fields with
      | nil => rfl
      | cons f fields ihs =>
        obtain ⟨⟨hkey, hvalue⟩, hfs⟩ := List.forall_mem_cons.mp hsome
        rw [List.map_cons, textEntry, canonicalizeEntries, ih f List.mem_cons_self hvalue,
          ihs (fun g hg => ih g (List.mem_cons_of_mem f hg)) hfs]
        simp only [canonicalizeValue, pure_bind, canonicalKeyBytes_text hL hkey]
        rfl
    -- the entries behind their keys are sorted as the entries by their keys
    have hsort := List.map_insertionSort (fun a b => (compare a.1 b.1).isLE)
      (fun a b => (compareOn (encodeKey L) a.1 b.1).isLE) Prod.snd (fields.map keyed)
      fun a ha b hb => by
        obtain ⟨f, _, rfl⟩ := List.mem_map.mp ha
        obtain ⟨g, _, rfl⟩ := List.mem_map.mp hb
        rfl
    rw [canonicalizeValue, hentries, MeshSession.canonicalize, sortMaps_map, sortEntries]
    rw [List.map_map] at hsort ⊢
    exact congrArg (Except.ok ∘ Value.map) hsort

variable {cmp : Value → Value → Ordering} (hcmp : TextFirst cmp) {v : Value} (hv : Plain v)

include hcmp hv

theorem sortsTo (hsome : (encode v).isSome) :
    SortsTo L cmp v (sortMaps keyOrder v) := by
  have hcore := canonicalize_eq hL.toDeterministic hv hsome
  have horder := hv.sortMaps_congr (fun s t _ _ => (hcmp s t).trans
    (keyOrder_textFirst s t).symm) hsome
  exact ⟨hcore ▸ canonicalizeValue_eq hL hv hsome, hcore,
    (hv.canonicalize hcmp).trans (congrArg some horder)⟩

/-- A tree is written and read back as itself, and each encoder then writes the sorted tree. -/
theorem encoders_eq : EncodersWrite L cmp v (canonicalBytes L v) := by
  obtain ⟨d, hd⟩ := hv.exists_untagged
  have hreadBack (path : Value → Option (List UInt8)) (hpath : ∀ w, SortsTo L cmp v w →
      (encode v).isSome → path v = L.intoWriter w) :
      ((L.intoWriter v).bind fun raw => (L.fromReader raw).bind fun read => path read.1) =
        canonicalBytes L v := by
    rw [canonicalBytes, hL.intoWriter_eq hd]
    refine Option.bind_congr fun raw hraw => Option.bind_congr fun read hread => ?_
    cases hL.eq_of_fromReader hd hraw hread
    have hsome : (encode v).isSome := Option.isSome_iff_exists.mpr ⟨raw, hraw⟩
    rw [hpath _ (sortsTo hL hcmp hv hsome) hsome, hL.intoWriter_eq (hd.sortMaps _)]
  refine ⟨?_, ?_, fun S rec h => ?_⟩
  · rw [← hreadBack fun p => (canonicalizeValue L p).toOption.bind L.intoWriter]
    · simp only [toCanonicalVec, toOption_bind, toOption_okOr]
      rfl
    · intro w hw _
      rw [hw.tunnel]
      rfl
  · rw [← hreadBack fun p => (rejectDisallowed L p).toOption.bind fun _ =>
      L.intoWriter (MeshSession.canonicalize L p)]
    · simp only [MeshSession.toCanonicalVec, toOption_bind, toOption_okOr]
      rfl
    · intro w hw hsome
      rw [rejectDisallowed_plain hL.toDeterministic hv hsome, hw.core]
      rfl
  · rw [← hreadBack fun p => (canonicalize cmp p).bind L.intoWriter]
    · simp only [MeshControl.toCanonicalBytes, h, withOrder, treeSerde, Option.bind_eq_bind,
        Option.bind_map]
      rfl
    · intro w hw _
      exact (congrArg (Option.bind · L.intoWriter) hw.control).trans rfl

/-- Up to the nesting the library reads, a tree has canonical bytes and they are accepted. -/
theorem exists_accepted {d : ℕ} (hd : Untagged d v) (hlimit : (d : ℕ∞) ≤ limit)
    (hsome : (encode v).isSome) : ∃ bytes w, toCanonicalVec L (treeSerde L) v = .ok bytes ∧
      fromCanonicalSliceStrict L (treeSerde L) bytes = .ok w := by
  obtain ⟨raw, hraw⟩ := Option.isSome_iff_exists.mp hsome
  obtain ⟨bytes, hbytes⟩ := Option.isSome_iff_exists.mp
    ((hv.isSome_encode_sortMaps keyOrder).mpr hsome)
  have hread := hL.fromReader_encode (hd.sortMaps _) hlimit hbytes
  have hwrite := (encoders_eq hL hcmp hv).tunnel
  have hagain := (encoders_eq hL hcmp (hv.sortMaps keyOrder_textFirst)).tunnel
  rw [canonicalBytes, hv.sortMaps_sortMaps keyOrder_textFirst] at hagain
  simp only [canonicalBytes, hraw, hL.fromReader_encode hd hlimit hraw, hbytes, hread,
    Option.bind_eq_bind, Option.bind_some, toOption_eq_some] at hwrite hagain
  exact ⟨bytes, _, hwrite, fromCanonicalSliceStrict_eq_ok.mpr ⟨by simp [treeSerde, hread], hagain⟩⟩

end

/-- The three encoders write the same bytes for every plain tree and sort it in the same way, once
and for all; and the strict reader accepts exactly the canonical encoding of what it returns. -/
theorem canonical_encoders_agree {L : Library} {limit : ℕ∞} (hL : L.Exact limit)
    {cmp : Value → Value → Ordering} (hcmp : TextFirst cmp) :
    (∀ v, Plain v → (∃ bytes?, EncodersWrite L cmp v bytes?) ∧
      ((encode v).isSome → ∃ w, SortsTo L cmp v w ∧ SortsTo L cmp w w) ∧
      ∀ d, Untagged d v → (d : ℕ∞) ≤ limit → (encode v).isSome →
        ∃ bytes w, toCanonicalVec L (treeSerde L) v = .ok bytes ∧
          fromCanonicalSliceStrict L (treeSerde L) bytes = .ok w) ∧
    ∀ (α : Type) (S : Serde α) bytes a, fromCanonicalSliceStrict L S bytes = .ok a ↔
      S.fromReader bytes = some a ∧ toCanonicalVec L S a = .ok bytes := by
  refine ⟨fun v hv => ⟨⟨_, encoders_eq hL hcmp hv⟩, fun hsome => ?_, fun d =>
    exists_accepted hL hcmp hv⟩, fun _ _ _ _ => fromCanonicalSliceStrict_eq_ok⟩
  have hsorted := sortsTo hL hcmp (hv.sortMaps keyOrder_textFirst)
    ((hv.isSome_encode_sortMaps keyOrder).mpr hsome)
  rw [hv.sortMaps_sortMaps keyOrder_textFirst] at hsorted
  exact ⟨_, sortsTo hL hcmp hv hsome, hsorted⟩

theorem canonical_encoders_agree_pair :
    (∃ bytes?, EncodersWrite (cursorLibrary 1) deterministic.canonicalCmp
        (.map [(.text "bb", .bool true), (.text "c", .bool false)]) bytes?) ∧
      (toCanonicalVec (cursorLibrary 1) (treeSerde (cursorLibrary 1))
        (.map [(.text "bb", .bool true), (.text "c", .bool false)])).toOption =
          some [0xa2, 0x61, 0x63, 0xf4, 0x62, 0x62, 0x62, 0xf5] := by
  refine ⟨((canonical_encoders_agree (cursorLibrary_exact 1)
    deterministic_lawful.textFirst).1 _ ?_).1, by decide +kernel⟩
  exact @Plain.map [("bb", .bool true), ("c", .bool false)] (by decide) (by simp [Plain.bool])

end Theyos.TunnelWire

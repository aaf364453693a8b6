import Theyos.Core.Cbor.Wire

/-!
# Deterministic bytes of a shape

The bytes a derived writer gives after its maps are sorted by the encodings of their
keys. Text keys are compared by `textOrder`, which is that order on the keys that can
be written. The bytes of a value determine it.
-/

namespace Theyos.Cbor

/-- The order of map keys by their encodings. -/
def bytewiseCmp : Value → Value → Ordering
  | .text s, .text t => textOrder s t
  | a, b => compare ((encode a).getD []) ((encode b).getD [])

theorem textFirst_bytewiseCmp : TextFirst bytewiseCmp := fun _ _ => rfl

namespace Codec

variable {α : Type}

/-- Bytes, as unsigned integers. -/
def u8 : Codec UInt8 :=
  u64.refine UInt8.toUInt64 (fun n => if n.toNat < 256 then some n.toUInt8 else none) fun n => by
    simp [n.toNat_lt]

/-- Enums written as the variant's number. -/
def numbers (number : α → UInt8) (all : List α) (hall : ∀ a, a ∈ all)
    (hinj : Function.Injective number) : Codec α :=
  u8.refine number (fun n => all.find? fun a => number a = n) fun a => by
    cases hfind : all.find? fun b => number b = number a with
    | none => simpa using List.find?_eq_none.mp hfind a (hall a)
    | some b =>
      have hnumber : number b = number a := by simpa using List.find?_some hfind
      rw [hinj hnumber]

/-- The canonical bytes of a value. -/
def toCanonicalVec (c : Codec α) (a : α) : Option (List UInt8) :=
  (canonicalize bytewiseCmp (c.enc a)).bind encode

/-- A value is known from its canonical bytes. -/
theorem toCanonicalVec_inj (c : Codec α) {a b : α} {data : List UInt8}
    (ha : c.toCanonicalVec a = some data) (hb : c.toCanonicalVec b = some data) : a = b := by
  obtain ⟨v, hv, hdec⟩ := c.round textFirst_bytewiseCmp a
  obtain ⟨w, hw, hdec'⟩ := c.round textFirst_bytewiseCmp b
  rw [toCanonicalVec, hv] at ha
  rw [toCanonicalVec, hw] at hb
  have hstored := ((c.storable a).canonicalize textFirst_bytewiseCmp hv).1.untagged
  have hstored' := ((c.storable b).canonicalize textFirst_bytewiseCmp hw).1.untagged
  rw [hstored.encode_inj hstored' ha hb, hdec'] at hdec
  exact (Option.some.inj hdec).symm

end Codec

end Theyos.Cbor

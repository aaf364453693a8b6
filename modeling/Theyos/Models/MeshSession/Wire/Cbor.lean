import Theyos.Core.Cbor.Cursor
import Theyos.Models.MeshSession.Error

/-!
# Canonical CBOR of the session core

The encoder sorts every map by the encoding of its keys; the checker decodes,
rejects the shapes no schema uses, sorts again and compares the bytes. The CBOR
library is a parameter. A key's encoding never fails for a value in memory, where
the source expects as much.
-/

namespace Theyos.MeshSession

open Cbor Machine

section

variable (L : Library)

/-- The encoding of a map key, used only to sort and to compare. -/
def encodeKey (v : Value) : List UInt8 := (L.intoWriter v).getD []

/-- Sort every map's entries by the encoding of their keys. -/
def canonicalize (v : Value) : Value := sortMaps (compareOn (encodeKey L)) v

mutual

/-- Reject null, tags, floats, non-text keys and duplicate keys at every depth. -/
def rejectDisallowed : Value → Except CborError Unit
  | .null => .error .nullNotAllowed
  | .tag _ _ => .error .tagNotAllowed
  | .float _ => .error .floatNotAllowed
  | .map entries => rejectDisallowedEntries [] entries
  | .array items => rejectDisallowedItems items
  | .integer _ | .bytes _ | .text _ | .bool _ => .ok ()

/-- The entries of a map, with the encodings of the keys seen before them. -/
def rejectDisallowedEntries (seen : List (List UInt8)) :
    List (Value × Value) → Except CborError Unit
  | [] => .ok ()
  | (k, v) :: entries => do
    require (k.asText ≠ none) .nonTextKey
    rejectDisallowed k
    require (encodeKey L k ∉ seen) .duplicateKey
    rejectDisallowed v
    rejectDisallowedEntries (encodeKey L k :: seen) entries

/-- The items of an array. -/
def rejectDisallowedItems : List Value → Except CborError Unit
  | [] => .ok ()
  | v :: items => do
    rejectDisallowed v
    rejectDisallowedItems items

end

/-- Serialize a value as canonical bytes. -/
def toCanonicalVec {α : Type} (S : Serde α) (value : α) : Except CborError (List UInt8) := do
  let raw ← okOr (S.intoWriter value) .encode
  let (parsed, _) ← okOr (L.fromReader raw) .encode
  rejectDisallowed L parsed
  okOr (L.intoWriter (canonicalize L parsed)) .encode

/-- Accept exactly the bytes that are the canonical encoding of the tree they decode to. -/
def verifyCanonical (bytes : List UInt8) : Except CborError Unit := do
  let (parsed, position) ← okOr (L.fromReader bytes) .decode
  require (position = bytes.length) .trailingBytes
  rejectDisallowed L parsed
  let reEncoded ← okOr (L.intoWriter (canonicalize L parsed)) .encode
  require (reEncoded = bytes) .nonCanonical

/-- Decode canonical bytes as a value of a type. -/
def fromCanonicalBytes {α : Type} (S : Serde α) (bytes : List UInt8) : Except CborError α := do
  verifyCanonical L bytes
  okOr (S.fromReader bytes) .unknownField

/-- Whether a map entry's key is the given text. -/
def hasKey (key : String) (entry : Value × Value) : Bool := entry.1.asText = some key

/-- Strip the one top-level signature entry of a canonical map. -/
def withoutSigField (canonicalBytes : List UInt8) : Except CborError (List UInt8) := do
  verifyCanonical L canonicalBytes
  let (parsed, _) ← okOr (L.fromReader canonicalBytes) .decode
  let entries ← okOr parsed.asMap .decode
  require ((entries.filter (hasKey "sig")).length = 1) .missingOrDuplicateSigField
  okOr (L.intoWriter (.map (entries.filter fun e => !hasKey "sig" e))) .encode

/-- The canonical bytes of a value without its signature entry. -/
def unsignedPreimageBody {α : Type} (S : Serde α) (value : α) : Except CborError (List UInt8) := do
  withoutSigField L (← toCanonicalVec L S value)

/-- Whether the bytes of a map have a given text key at the top level. -/
def mapHasTopLevelKey (bytes : List UInt8) (key : String) : Except CborError Bool := do
  let (parsed, _) ← okOr (L.fromReader bytes) .decode
  let entries ← okOr parsed.asMap .decode
  return entries.any (hasKey key)

end

section

variable {L : Library}

mutual

/-- What the rejection pass lets through is plain. -/
theorem plain_of_rejectDisallowed {v : Value} (h : rejectDisallowed L v = .ok ()) : Plain v := by
  cases v with
  | integer n => exact .integer n
  | bytes data => exact .bytes data
  | text s => exact .text s
  | bool b => exact .bool b
  | array items =>
    exact .array (plain_of_rejectDisallowedItems h)
  | map entries =>
    obtain ⟨fields, rfl, hplain, hkeys, _⟩ := plain_of_rejectDisallowedEntries h
    refine .map (.of_map (fun name => encodeKey L (.text name)) ?_) hplain
    rwa [List.map_map]
  | _ => simp [rejectDisallowed] at h

theorem plain_of_rejectDisallowedItems {items : List Value}
    (h : rejectDisallowedItems L items = .ok ()) : ∀ v ∈ items, Plain v := by
  cases items with
  | nil => exact nofun
  | cons v items =>
    simp only [rejectDisallowedItems, bind_eq_ok] at h
    obtain ⟨_, hv, hitems⟩ := h
    exact List.forall_mem_cons.mpr
      ⟨plain_of_rejectDisallowed hv, plain_of_rejectDisallowedItems hitems⟩

theorem plain_of_rejectDisallowedEntries {seen : List (List UInt8)}
    {entries : List (Value × Value)} (h : rejectDisallowedEntries L seen entries = .ok ()) :
    ∃ fields : List (String × Value), entries = fields.map textEntry ∧
      (∀ f ∈ fields, Plain f.2) ∧ (fields.map fun f => encodeKey L (.text f.1)).Nodup ∧
      ∀ f ∈ fields, encodeKey L (.text f.1) ∉ seen := by
  cases entries with
  | nil => exact ⟨[], rfl, nofun, .nil, nofun⟩
  | cons e entries =>
    obtain ⟨k, v⟩ := e
    simp only [rejectDisallowedEntries, eq_ok_iff] at h
    obtain ⟨hk, _, hseen, hv, hentries⟩ := h
    obtain ⟨s, hs⟩ := Option.ne_none_iff_exists'.mp hk
    obtain rfl := Value.asText_eq_some.mp hs
    obtain ⟨fields, rfl, hplain, hkeys, hnew⟩ := plain_of_rejectDisallowedEntries hentries
    refine ⟨(s, v) :: fields, rfl, List.forall_mem_cons.mpr
      ⟨plain_of_rejectDisallowed hv, hplain⟩, ?_, List.forall_mem_cons.mpr ⟨hseen, ?_⟩⟩
    · rw [List.map_cons, List.nodup_cons]
      refine ⟨fun hmem => ?_, hkeys⟩
      obtain ⟨f, hf, hkey⟩ := List.mem_map.mp hmem
      exact hnew f hf (hkey ▸ List.mem_cons_self)
    · exact fun f hf hmem => hnew f hf (List.mem_cons_of_mem _ hmem)

end

end

end Theyos.MeshSession

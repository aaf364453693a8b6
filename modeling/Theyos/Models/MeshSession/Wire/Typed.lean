import Theyos.Models.MeshSession.Wire.Schema

/-!
# Typed frames on the wire

A record's plaintext is a type byte and a canonical map without a `type` key. The
five authentication frames and the connection intent are written and read through
that form, each under its own type byte. The lengths are compared as 32-bit
numbers, as the source casts them.
-/

namespace Theyos.MeshSession

open Cbor Machine

/-- The largest body of a record: 65535 bytes without the 16-byte tag and the type byte. -/
def maxCborBodyLen : ℕ := 65518

/-- A length after its cast to 32 bits. -/
def asU32 (n : ℕ) : ℕ := n % 2 ^ 32

section

variable (L : Library)

/-- The checks on a body, before it is framed and after it is split off. -/
def checkTypedBody (body : List UInt8) : Except WireError Unit := do
  require (asU32 body.length ≤ maxCborBodyLen) (.oversizeFrame (asU32 body.length) maxCborBodyLen)
  (verifyCanonical L body).mapError .cbor
  let reserved ← (mapHasTopLevelKey L body "type").mapError .cbor
  require (reserved = false) .typeKeyInBody

/-- Put a type byte before a canonical body. -/
def encodeTypedFrame (typeByte : UInt8) (bodyCbor : List UInt8) : Except WireError (List UInt8) := do
  checkTypedBody L bodyCbor
  return typeByte :: bodyCbor

/-- Split a plaintext into its type byte and its canonical body. -/
def decodeTypedFrame (plaintext : List UInt8) : Except WireError (UInt8 × List UInt8) := do
  match plaintext with
  | [] => throw (.cbor .decode)
  | typeByte :: body =>
    checkTypedBody L body
    return (typeByte, body)

end

theorem encodeTypedFrame_eq_ok {L : Library} {typeByte : UInt8} {body plaintext : List UInt8} :
    encodeTypedFrame L typeByte body = .ok plaintext ↔
      checkTypedBody L body = .ok () ∧ plaintext = typeByte :: body := by
  simp only [encodeTypedFrame, eq_ok_iff, eq_comm (a := plaintext)]

theorem decodeTypedFrame_eq_ok {L : Library} {typeByte : UInt8} {body plaintext : List UInt8} :
    decodeTypedFrame L plaintext = .ok (typeByte, body) ↔
      checkTypedBody L body = .ok () ∧ plaintext = typeByte :: body := by
  cases plaintext with
  | nil => simp [decodeTypedFrame, throw, throwThe, MonadExceptOf.throw]
  | cons t rest =>
    simp only [decodeTypedFrame, eq_ok_iff, Prod.mk.injEq, List.cons.injEq]
    grind

/-- A schema that a typed frame may carry: its trees are maps without a `type` key that ask
for no coercion. -/
structure FrameSchema {α : Type} (c : Codec α) : Prop where
  faithful : c.Faithful
  direct : ∀ a, Direct (c.enc a)
  depth : c.depth ≤ 3
  fields : ∀ a, ∃ fields : List (String × Value), c.enc a = .map (fields.map textEntry) ∧
    "type" ∉ fields.map Prod.fst

/-- A reader that follows three levels reads the trees of the schema. -/
theorem FrameSchema.depth_le {α : Type} {c : Codec α} (hc : FrameSchema c) {limit : ℕ∞}
    (hlimit : 3 ≤ limit) : (c.depth : ℕ∞) ≤ limit :=
  (by exact_mod_cast hc.depth : (c.depth : ℕ∞) ≤ 3).trans hlimit

namespace Schema

/-- The schema of a checked struct. -/
theorem frameSchema {α ε : Type} {F : Fields α} {hnames : F.names.Nodup}
    {check : α → Except ε Unit} (hF : F.Faithful)
    (hdirect : ∀ a, check a = .ok () → F.AllDirect a) (hdepth : F.depth ≤ 2)
    (htype : "type" ∉ F.names) : FrameSchema ((Codec.struct F hnames).checked check) where
  faithful := (Codec.Faithful.struct hF hnames).checked check
  direct a := .map (hdirect a.1 a.2)
  depth := Nat.succ_le_succ hdepth
  fields a := ⟨F.enc a.1, rfl, F.enc_names a.1 ▸ htype⟩

section

variable (isPoint : List UInt8 → Bool)

theorem proofR_frame : FrameSchema (proofR isPoint) :=
  frameSchema (proofRFields_faithful isPoint)
    (fun a h => by simp [proofRFields, delegation_direct, ProofRWire.check_eq_ok.mp h]) le_rfl
    (by simp [proofRFields, Fields.equiv, Fields.cons, Fields.nil])

theorem proofI_frame : FrameSchema (proofI isPoint) :=
  frameSchema (proofIFields_faithful isPoint)
    (fun a h => by simp [proofIFields, delegation_direct, ProofIWire.check_eq_ok.mp h]) le_rfl
    (by simp [proofIFields, Fields.equiv, Fields.cons, Fields.nil])

theorem finalConfirm_frame : FrameSchema finalConfirm :=
  frameSchema finalConfirmFields_faithful
    (fun a h => by simp [finalConfirmFields, FinalConfirmWire.check_eq_ok.mp h]) (by decide) (by decide)

theorem activate_frame : FrameSchema activate :=
  frameSchema activateFields_faithful
    (fun a h => by simp [activateFields, ActivateWire.check_eq_ok.mp h]) (by decide) (by decide)

theorem activateAck_frame : FrameSchema activateAck :=
  frameSchema activateAckFields_faithful
    (fun a h => by simp [activateAckFields, ActivateAckWire.check_eq_ok.mp h]) (by decide) (by decide)

theorem intent_frame : FrameSchema intent :=
  frameSchema intentFields_faithful
    (fun a h => by simp [intentFields, SignedMeshConnectionIntentWire.check_eq_ok.mp h]) (by decide) (by decide)

end

end Schema

section

variable {L : Library} {limit : ℕ∞} {α : Type} {S : Serde α} {c : Codec α}
  (hL : L.Deterministic limit) (hlimit : 3 ≤ limit) (hS : S.Reads L limit c) (hc : FrameSchema c)

include hL hlimit hS hc

theorem mapHasTopLevelKey_type {a : α} {body : List UInt8}
    (h : toCanonicalVec L S a = .ok body) : mapHasTopLevelKey L body "type" = .ok false := by
  have hd := (c.storable a).untagged
  rw [toCanonicalVec_eq_ok hL hS hc.faithful (hc.depth_le hlimit)] at h
  have hread := hL.fromReader_encode (hd.sortMaps keyOrder) (hc.depth_le hlimit) h
  obtain ⟨fields, henc, htype⟩ := hc.fields a
  rw [henc, sortMaps_fields keyOrder_textFirst] at hread
  simp only [mapHasTopLevelKey, eq_ok_iff]
  refine ⟨_, hread, _, rfl, ?_⟩
  rw [List.any_eq_false]
  intro e he hkey
  obtain ⟨g, hg, rfl⟩ := List.mem_map.mp he
  obtain ⟨f, hf, rfl⟩ := (mem_sortFields keyOrder).mp hg
  have hname : f.1 = "type" := by simpa [hasKey, textEntry, Value.asText, sortField] using hkey
  exact htype (hname ▸ List.mem_map_of_mem hf)

/-- The canonical bytes of a frame within the size limit pass the checks on a body. -/
theorem checkTypedBody_toCanonicalVec {a : α} {body : List UInt8}
    (h : toCanonicalVec L S a = .ok body) (hsize : body.length ≤ maxCborBodyLen) :
    checkTypedBody L body = .ok () := by
  have hverify := (fromCanonicalBytes_toCanonicalVec hL hS hc.faithful (hc.depth_le hlimit) h).1
  have hcast : asU32 body.length ≤ maxCborBodyLen := (Nat.mod_le _ _).trans hsize
  simp only [checkTypedBody, eq_ok_iff]
  exact ⟨hcast, hverify, false, mapHasTopLevelKey_type hL hlimit hS hc h, rfl⟩

end

end Theyos.MeshSession

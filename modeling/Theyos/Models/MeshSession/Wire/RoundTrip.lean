import Theyos.Models.MeshSession.Wire.Auth

/-!
# One canonical form per tree and per frame

Plain trees and accepted byte strings correspond up to the order of map entries, and a frame or
intent is read back from its bytes. An accepted byte string is the encoding of the frame read from
it exactly when its tree asks for no coercion.
-/

namespace Theyos.MeshSession

open Cbor Machine Schema

/-- The tree is nested no deeper than the reader follows. -/
def Nested (limit : ℕ∞) (v : Value) : Prop := ∃ d : ℕ, (d : ℕ∞) ≤ limit ∧ Untagged d v

section

variable {L : Library} {limit : ℕ∞} (hL : L.Deterministic limit)

include hL

variable {v : Value}

/-- The canonical encoding of a plain tree is accepted. -/
theorem plain_accepted (hv : Plain v) (hsome : (encode v).isSome) (hnested : Nested limit v) :
    ∃ b, L.intoWriter (canonicalize L v) = some b ∧ verifyCanonical L b = .ok () := by
  obtain ⟨d, hd, huntagged⟩ := hnested
  obtain ⟨b, hb⟩ := Option.isSome_iff_exists.mp ((hv.isSome_encode_sortMaps keyOrder).mpr hsome)
  refine ⟨b, ?_, verifyCanonical_sorted hL hv huntagged hd hb⟩
  rw [canonicalize_eq hL hv hsome, hL.intoWriter_eq (huntagged.sortMaps _), hb]

variable {b : List UInt8}

/-- The canonical encodings of two plain trees agree exactly for reorderings. -/
theorem intoWriter_canonicalize {u : Value} (hu : Plain u) (hv : Plain v)
    (hb : L.intoWriter (canonicalize L v) = some b) :
    L.intoWriter (canonicalize L u) = some b ↔ Reordered v u := by
  have hwritten {w : Value} (hw : Plain w) (h : L.intoWriter (canonicalize L w) = some b) :
      encode (sortMaps keyOrder w) = some b := by
    obtain ⟨d, hd⟩ := hw.exists_untagged
    rw [canonicalize, hL.intoWriter_eq (hd.sortMaps _)] at h
    have hsome := (hw.isSome_encode_sortMaps _).mp (Option.isSome_iff_exists.mpr ⟨b, h⟩)
    rwa [← canonicalize_eq hL hw hsome]
  obtain ⟨d, hd⟩ := hu.exists_untagged
  obtain ⟨e, he⟩ := hv.exists_untagged
  constructor
  · intro h
    exact hv.reordered_of_sortMaps_eq keyOrder_textFirst hu
      ((he.sortMaps keyOrder).encode_inj (hd.sortMaps keyOrder) (hwritten hv hb) (hwritten hu h))
  · intro h
    have hsorted := hwritten hv hb
    rw [h.sortMaps_eq keyOrder_textFirst hv hu] at hsorted
    have hsome := (hu.isSome_encode_sortMaps _).mp (Option.isSome_iff_exists.mpr ⟨b, hsorted⟩)
    rw [canonicalize_eq hL hu hsome, hL.intoWriter_eq (hd.sortMaps _), hsorted]

omit hL in
/-- What accepted bytes decode to is plain and has them as its canonical encoding. -/
theorem accepted_plain (hb : verifyCanonical L b = .ok ()) :
    ∃ v, L.fromReader b = some (v, b.length) ∧ Plain v ∧
      L.intoWriter (canonicalize L v) = some b := by
  obtain ⟨v, hread, hallowed, hwrite⟩ := verifyCanonical_eq_ok.mp hb
  exact ⟨v, hread, plain_of_rejectDisallowed hallowed, hwrite⟩

/-- Accepted byte strings that decode to reorderings of one tree are equal. -/
theorem accepted_inj {b' : List UInt8} (hb : verifyCanonical L b = .ok ())
    (hb' : verifyCanonical L b' = .ok ()) {v' : Value} {n n' : ℕ}
    (hv : L.fromReader b = some (v, n)) (hv' : L.fromReader b' = some (v', n'))
    (h : Reordered v v') : b = b' := by
  obtain ⟨w, hw, hplain, hwrite⟩ := accepted_plain hb
  obtain ⟨w', hw', hplain', hwrite'⟩ := accepted_plain hb'
  obtain ⟨rfl, -⟩ : w = v ∧ b.length = n := by simpa using hw.symm.trans hv
  obtain ⟨rfl, -⟩ : w' = v' ∧ b'.length = n' := by simpa using hw'.symm.trans hv'
  have hsame := (intoWriter_canonicalize hL hplain' hplain hwrite).mpr h
  exact Option.some.inj (hsame.symm.trans hwrite')

end

section

variable {isPoint : List UInt8 → Bool} {F : Formats isPoint} {limit : ℕ∞} (hF : F.Lawful limit)

include hF

variable {body : List UInt8}

/-- A type of frame passes the check and is read back, and is written back exactly without
coercion. -/
theorem typed_roundTrip {α : Type} {S : Serde α} {c : Codec α}
    (hS : S.Reads F.library limit c) (hc : FrameSchema c) {a : α} :
    (toCanonicalVec F.library S a = .ok body → fromCanonicalBytes F.library S body = .ok a ∧
      (body.length ≤ maxCborBodyLen → checkTypedBody F.library body = .ok ())) ∧
      (fromCanonicalBytes F.library S body = .ok a → ∀ v n,
        F.library.fromReader body = some (v, n) →
          (toCanonicalVec F.library S a = .ok body ↔ Direct v)) := by
  have hdepth := hc.depth_le hF.nesting
  exact ⟨fun h => ⟨(fromCanonicalBytes_toCanonicalVec hF.library hS hc.faithful hdepth h).2,
      checkTypedBody_toCanonicalVec hF.library hF.nesting hS hc h⟩,
    fun h v n hv => toCanonicalVec_fromCanonicalBytes hF.library hS hc.faithful hdepth
      (hc.direct a) h hv⟩

omit hF in
/-- A checked body has the frame as its encoding exactly when it is the body encoded. -/
theorem encodeTypedFrame_checked {P : List UInt8 → Prop} {typeByte : UInt8}
    (hcheck : checkTypedBody F.library body = .ok ()) :
    (∃ body', P body' ∧ encodeTypedFrame F.library typeByte body' = .ok (typeByte :: body)) ↔
      P body := by
  simp only [encodeTypedFrame_eq_ok]
  constructor
  · rintro ⟨body', hbody', _, heq⟩
    exact (List.cons.inj heq).2 ▸ hbody'
  · exact fun hbody' => ⟨body, hbody', hcheck, rfl⟩

variable {f : AuthFrame isPoint}

/-- A frame's body passes the check and is read back under the frame's type byte. -/
theorem readAuthBody_bodyCbor (h : f.bodyCbor F = .ok body) :
    readAuthBody F f.typeByte body = .ok f ∧
      (body.length ≤ maxCborBodyLen → checkTypedBody F.library body = .ok ()) := by
  cases f with
  | proofR f =>
    have hread := (typed_roundTrip hF hF.proofR (proofR_frame isPoint)).1 h
    simpa [readAuthBody, AuthFrame.typeByte, map_eq_ok, mapError_eq_ok] using hread
  | proofI f =>
    have hread := (typed_roundTrip hF hF.proofI (proofI_frame isPoint)).1 h
    simpa [readAuthBody, AuthFrame.typeByte, typeProofI, typeProofR, map_eq_ok,
      mapError_eq_ok] using hread
  | finalConfirm f =>
    have hread := (typed_roundTrip hF hF.finalConfirm finalConfirm_frame).1 h
    simpa [readAuthBody, AuthFrame.typeByte, typeFinalConfirm, typeProofI, typeProofR,
      map_eq_ok, mapError_eq_ok] using hread
  | activate f =>
    have hread := (typed_roundTrip hF hF.activate activate_frame).1 h
    simpa [readAuthBody, AuthFrame.typeByte, typeActivate, typeFinalConfirm, typeProofI, typeProofR,
      map_eq_ok, mapError_eq_ok] using hread
  | activateAck f =>
    have hread := (typed_roundTrip hF hF.activateAck activateAck_frame).1 h
    simpa [readAuthBody, AuthFrame.typeByte, typeActivateAck, typeActivate, typeFinalConfirm,
      typeProofI, typeProofR, map_eq_ok, mapError_eq_ok] using hread

/-- What is read under a type byte is of that type, and is written back exactly without
coercion. -/
theorem bodyCbor_readAuthBody {typeByte : UInt8} (h : readAuthBody F typeByte body = .ok f) :
    f.typeByte = typeByte ∧ ∀ v n, F.library.fromReader body = some (v, n) →
      (f.bodyCbor F = .ok body ↔ Direct v) := by
  unfold readAuthBody at h
  split_ifs at h with hr hi hconfirm hactivate hack
  · obtain ⟨a, ha, rfl⟩ := map_eq_ok.mp (mapError_eq_ok.mp h)
    exact ⟨hr.symm, (typed_roundTrip hF hF.proofR (proofR_frame isPoint)).2 ha⟩
  · obtain ⟨a, ha, rfl⟩ := map_eq_ok.mp (mapError_eq_ok.mp h)
    exact ⟨hi.symm, (typed_roundTrip hF hF.proofI (proofI_frame isPoint)).2 ha⟩
  · obtain ⟨a, ha, rfl⟩ := map_eq_ok.mp (mapError_eq_ok.mp h)
    exact ⟨hconfirm.symm, (typed_roundTrip hF hF.finalConfirm finalConfirm_frame).2 ha⟩
  · obtain ⟨a, ha, rfl⟩ := map_eq_ok.mp (mapError_eq_ok.mp h)
    exact ⟨hactivate.symm, (typed_roundTrip hF hF.activate activate_frame).2 ha⟩
  · obtain ⟨a, ha, rfl⟩ := map_eq_ok.mp (mapError_eq_ok.mp h)
    exact ⟨hack.symm, (typed_roundTrip hF hF.activateAck activateAck_frame).2 ha⟩

end

/-- Canonical bytes and what they stand for determine each other. -/
structure OneCanonicalForm {isPoint : List UInt8 → Bool} (F : Formats isPoint) (limit : ℕ∞)
    {Key : Type} (p : P256 Key) : Prop where
  /-- The canonical encoding of every plain tree in memory is accepted. -/
  accepts : ∀ v, Plain v → (encode v).isSome → Nested limit v →
    ∃ b, F.library.intoWriter (canonicalize F.library v) = some b ∧
      verifyCanonical F.library b = .ok ()
  /-- Accepted bytes are the canonical encoding of one plain tree and its reorderings only. -/
  unique : ∀ b, verifyCanonical F.library b = .ok () →
    ∃ v, F.library.fromReader b = some (v, b.length) ∧ Plain v ∧
      ∀ u, Plain u → (F.library.intoWriter (canonicalize F.library u) = some b ↔ Reordered v u)
  /-- Accepted byte strings with reorderings of one tree are equal. -/
  injective : ∀ b b' v v' n n', verifyCanonical F.library b = .ok () →
    verifyCanonical F.library b' = .ok () → F.library.fromReader b = some (v, n) →
    F.library.fromReader b' = some (v', n') → Reordered v v' → b = b'
  /-- A frame within the size limit is encoded and read back. -/
  frame : ∀ f body, AuthFrame.bodyCbor F f = .ok body → body.length ≤ maxCborBodyLen →
    ∃ b, encodeAuthFrame F f = .ok b ∧ decodeAuthFrame F b = .ok f
  /-- An accepted frame is encoded to the same bytes exactly when they ask for no coercion. -/
  frame_back : ∀ b f, decodeAuthFrame F b = .ok f → ∀ v n,
    F.library.fromReader b.tail = some (v, n) → (encodeAuthFrame F f = .ok b ↔ Direct v)
  /-- An intent whose signature parses is encoded and read back within the size limit. -/
  intent : ∀ i body (sig : SignatureBytes), toCanonicalVec F.library F.intent i = .ok body →
    body.length ≤ maxCborBodyLen → i.1.sig = sig.toList → p.parseLowSSignature sig = .ok () →
    ∃ b, encodeIntentRecord F i = .ok b ∧ decodeIntentRecord F p b = .ok i
  /-- An accepted intent is encoded to the same bytes exactly when they ask for no coercion. -/
  intent_back : ∀ b i, decodeIntentRecord F p b = .ok i → ∀ v n,
    F.library.fromReader b.tail = some (v, n) → (encodeIntentRecord F i = .ok b ↔ Direct v)

/-- Over a deterministic library there is one canonical form per plain tree, and one per frame
and intent among the bytes that ask for no coercion. -/
theorem one_canonical_form {isPoint : List UInt8 → Bool} {F : Formats isPoint} {limit : ℕ∞}
    (hF : F.Lawful limit) {Key : Type} (p : P256 Key) : OneCanonicalForm F limit p where
  accepts _ hv hsome hnested := plain_accepted hF.library hv hsome hnested
  unique b hb := by
    obtain ⟨v, hread, hplain, hwrite⟩ := accepted_plain hb
    exact ⟨v, hread, hplain, fun u hu => intoWriter_canonicalize hF.library hu hplain hwrite⟩
  injective _ _ _ _ _ _ hb hb' hv hv' h := accepted_inj hF.library hb hb' hv hv' h
  frame f body h hsize := by
    obtain ⟨hread, hcheck⟩ := readAuthBody_bodyCbor hF h
    refine ⟨f.typeByte :: body, ?_, ?_⟩
    · simp only [encodeAuthFrame, eq_ok_iff, encodeTypedFrame_eq_ok]
      exact ⟨body, h, hcheck hsize, rfl⟩
    · simp only [decodeAuthFrame, eq_ok_iff]
      exact ⟨(f.typeByte, body), decodeTypedFrame_eq_ok.mpr ⟨hcheck hsize, rfl⟩, hread⟩
  frame_back b f h v n hv := by
    simp only [decodeAuthFrame, eq_ok_iff] at h
    obtain ⟨⟨typeByte, body⟩, htyped, hread⟩ := h
    obtain ⟨hcheck, rfl⟩ := decodeTypedFrame_eq_ok.mp htyped
    obtain ⟨rfl, hbody⟩ := bodyCbor_readAuthBody hF hread
    rw [← hbody v n hv]
    simp only [encodeAuthFrame, eq_ok_iff]
    exact encodeTypedFrame_checked hcheck
  intent i body sig h hsize hsig hlow := by
    obtain ⟨hread, hcheck⟩ := (typed_roundTrip hF hF.intent intent_frame).1 h
    refine ⟨intentTypeByte :: body, ?_, ?_⟩
    · simp only [encodeIntentRecord, eq_ok_iff, encodeTypedFrame_eq_ok]
      exact ⟨body, h, hcheck hsize, rfl⟩
    · simp only [decodeIntentRecord, eq_ok_iff]
      exact ⟨(intentTypeByte, body), decodeTypedFrame_eq_ok.mpr ⟨hcheck hsize, rfl⟩, rfl, i, hread, sig,
        sigArray_eq_some.mpr hsig, hlow, rfl⟩
  intent_back b i h v n hv := by
    simp only [decodeIntentRecord, eq_ok_iff] at h
    obtain ⟨⟨typeByte, body⟩, htyped, rfl, i, hread, _, _, _, rfl⟩ := h
    obtain ⟨hcheck, rfl⟩ := decodeTypedFrame_eq_ok.mp htyped
    rw [← (typed_roundTrip hF hF.intent intent_frame).2 hread v n hv]
    simp only [encodeIntentRecord, eq_ok_iff]
    exact encodeTypedFrame_checked hcheck

/-- Curve operations that accept everything. -/
def openP256 : P256 Unit where
  fromSec1Bytes _ := some ()
  isSignature _ := true
  isLowS _ := true
  verify _ _ _ := true

/-- Formats over the library with shortest encodings, nested up to eight deep. -/
abbrev smallFormats : Formats openP256.isPoint := cursorFormats openP256.isPoint 8

/-- An acknowledgement of zeros. -/
def smallAck : ActivateAck where
  val :=
    { protocolVersion, domain, kind := kindActivateAck, hFinal := List.replicate 32 0
      responderMId := "m-1", activateDigest := List.replicate 32 0
      sig := placeholderSig }
  property := by decide

/-- The canonical body of that acknowledgement with a given transcript hash item. -/
def smallAckBody (hFinal : Value) : List UInt8 :=
  (encode (.map
    [(.text "sig", .bytes placeholderSig), (.text "kind", .text kindActivateAck),
      (.text "domain", .text domain), (.text "h_final", hFinal),
      (.text "responder_m_id", .text "m-1"),
      (.text "activate_digest", .bytes (List.replicate 32 0)),
      (.text "protocol_version", .integer 1)])).getD []

theorem one_canonical_form_smallAck :
    ∃ b, encodeAuthFrame smallFormats (.activateAck smallAck) = .ok b ∧
      decodeAuthFrame smallFormats b = .ok (.activateAck smallAck) :=
  (one_canonical_form (cursorFormats_lawful openP256.isPoint (by decide)) openP256).frame
    (.activateAck smallAck) (smallAckBody (.bytes (List.replicate 32 0))) (by decide +kernel)
    (by decide +kernel)

/-- An array of integers is read as the transcript hash, so one frame has two accepted
encodings. -/
theorem array_read_as_bytes :
    decodeAuthFrame smallFormats
        (typeActivateAck :: smallAckBody (.array (List.replicate 32 (.integer 0)))) =
      .ok (.activateAck smallAck) ∧
    encodeAuthFrame smallFormats (.activateAck smallAck) =
      .ok (typeActivateAck :: smallAckBody (.bytes (List.replicate 32 0))) ∧
    smallAckBody (.array (List.replicate 32 (.integer 0))) ≠
      smallAckBody (.bytes (List.replicate 32 0)) := by
  decide +kernel

end Theyos.MeshSession

import Theyos.Models.MeshSession.Active.Session

/-!
# Records of an active session

A payload is written behind its type byte as it is, and only markers are read as canonical maps.
The length of a body is compared after its cast to 32 bits, so the bound fails exactly for long
bodies whose length is cast to a small one.
-/

namespace Theyos.MeshSession

open Cbor Machine

/-- Put the type byte of a payload before it. -/
def encodeDataRecord (payload : List UInt8) : Except PostActiveError (List UInt8) := do
  checkOpaqueBodyLen payload.length
  return 0x10 :: payload

variable (L : Library) (S : Serde UInt64)

/-- Read a record; the type byte decides how the body is checked. -/
def decodePostActiveRecord : List UInt8 → Except PostActiveError PostActiveRecord
  | [] => .error .emptyRecord
  | typeByte :: body =>
    if typeByte = 0x10 then do
      checkOpaqueBodyLen body.length
      return .data body
    else if typeByte = 0x20 then do
      require (body = []) .nonEmptyControlBody
      return .revokeNotice
    else if typeByte = 0x30 then do
      require (body = []) .nonEmptyControlBody
      return .close
    else if typeByte = 0x40 then do
      let (_, cborBody) ← (decodeTypedFrame L (typeByte :: body)).mapError .wire
      let nextGeneration ← (fromCanonicalBytes L S cborBody).mapError .cbor
      return .rekey nextGeneration
    else if 0x01 ≤ typeByte ∧ typeByte ≤ 0x05 then .error (.unexpectedAuthFrame typeByte)
    else if typeByte = 0x06 then .error .unexpectedIntentRecord
    else if typeByte = 0x07 then .error .reservedTypeByte
    else .error (.unknownTypeByte typeByte)

variable {L S} {body plaintext : List UInt8}

theorem checkOpaqueBodyLen_eq_ok {len : ℕ} {u : Unit} :
    checkOpaqueBodyLen len = .ok u ↔ asU32 len ≤ maxCborBodyLen := by
  unfold checkOpaqueBodyLen
  split <;> simp_all [asU32]

theorem asU32_le_of_decode (h : decodePostActiveRecord L S plaintext = .ok (.data body)) :
    asU32 body.length ≤ maxCborBodyLen := by
  cases plaintext with
  | nil => cases h
  | cons typeByte rest =>
    simp only [decodePostActiveRecord] at h
    split_ifs at h <;> simp only [eq_ok_iff, reduceCtorEq, and_false, exists_false] at h
    obtain ⟨hcheck, hbody⟩ := h
    cases hbody
    exact checkOpaqueBodyLen_eq_ok.mp hcheck

theorem asU32_le_of_checkTypedBody (h : checkTypedBody L body = .ok ()) :
    asU32 body.length ≤ maxCborBodyLen := by
  obtain ⟨_, hlength, _⟩ := bind_eq_ok.mp h
  exact require_eq_ok.mp hlength

theorem encodeDataRecord_eq_ok : encodeDataRecord body = .ok plaintext ↔
    asU32 body.length ≤ maxCborBodyLen ∧ 0x10 :: body = plaintext := by
  simp only [encodeDataRecord, eq_ok_iff, checkOpaqueBodyLen_eq_ok]

/-- A payload that is written is read back. A body is written or read only if it has at most 65518
bytes, and then fits one transport record, exactly if the cast of its length does not hide that it
is longer. -/
theorem record_bounded (typeByte : UInt8) :
    (∀ plaintext, encodeDataRecord body = .ok plaintext →
      decodePostActiveRecord L S plaintext = .ok (.data body)) ∧
    ((∀ plaintext, (encodeDataRecord body = .ok plaintext → plaintext.length + 16 ≤ 65535) ∧
      (encodeDataRecord body = .ok plaintext ∨
        decodePostActiveRecord L S plaintext = .ok (.data body) ∨
        encodeTypedFrame L typeByte body = .ok plaintext ∨
        decodeTypedFrame L plaintext = .ok (typeByte, body) → body.length ≤ 65518)) ↔
      body.length ≤ 65518 ∨ 65518 < body.length % 2 ^ 32) := by
  refine ⟨fun plaintext h => ?_, fun h => ?_, fun hcond plaintext => ?_⟩
  · obtain ⟨hcast, rfl⟩ := encodeDataRecord_eq_ok.mp h
    simp only [decodePostActiveRecord, if_true, eq_ok_iff, checkOpaqueBodyLen_eq_ok]
    exact ⟨hcast, trivial⟩
  · by_cases hcast : asU32 body.length ≤ maxCborBodyLen
    · exact .inl ((h _).2 (.inl (encodeDataRecord_eq_ok.mpr ⟨hcast, rfl⟩)))
    · exact .inr (not_le.mp hcast)
  · have hle (hcast : asU32 body.length ≤ maxCborBodyLen) : body.length ≤ 65518 :=
      hcond.resolve_right (not_lt.mpr hcast)
    constructor
    · intro h
      obtain ⟨hcast, rfl⟩ := encodeDataRecord_eq_ok.mp h
      exact Nat.add_le_add_right (Nat.succ_le_succ (hle hcast)) 16
    · rintro (h | h | h | h)
      · exact hle (encodeDataRecord_eq_ok.mp h).1
      · exact hle (asU32_le_of_decode h)
      · exact hle (asU32_le_of_checkTypedBody (encodeTypedFrame_eq_ok.mp h).1)
      · exact hle (asU32_le_of_checkTypedBody (decodeTypedFrame_eq_ok.mp h).1)

/-- A payload of `2 ^ 32` bytes passes for an empty one. -/
theorem record_unbounded : ∃ payload, payload.length = 2 ^ 32 ∧
    encodeDataRecord payload = .ok (0x10 :: payload) := by
  refine ⟨List.replicate (2 ^ 32) 0, List.length_replicate, bind_eq_ok.mpr ⟨(), ?_, rfl⟩⟩
  rw [List.length_replicate]
  decide

end Theyos.MeshSession

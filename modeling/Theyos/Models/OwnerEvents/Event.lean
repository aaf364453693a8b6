import Theyos.Core.Bytes.Framing
import Theyos.Core.Store.Scan

/-!
# Owner events and their records

An event carries a cursor and a signature of its issuer. On disk it is a record: the
length of its canonical encoding in eight bytes, and the encoding. Records are read until
a length is too large, a record is cut short, does not decode, or has a payload of another
type.
-/

namespace Theyos.OwnerEvents

/-- The type tag of an event. -/
inductive OwnerEventType where
  | joinRequest
  | machineJoined
  | joinCancelled
  | devicePairRequest
  | signMachineCertForProxy
  deriving DecidableEq, Repr

structure JoinRequestPayload where
  joinRequestCbor : List UInt8
  fingerprint : String
  expiry : UInt64
  deriving DecidableEq, Repr

structure MachineJoinedPayload where
  mPub : List UInt8
  mId : String
  hostname : String
  joinedAt : UInt64
  deriving DecidableEq, Repr

structure JoinCancelledPayload where
  mPub : List UInt8
  reason : String
  deriving DecidableEq, Repr

structure DevicePairRequestPayload where
  requestId : String
  dPub : List UInt8
  deviceName : String
  platform : String
  expiry : UInt64
  deriving DecidableEq, Repr

structure SignMachineCertForProxyPayload where
  actorPersonId : String
  targetMId : String
  joinedAt : UInt64
  hostname : String
  platform : String
  deriving DecidableEq, Repr

/-- The payload of an event. -/
inductive OwnerEventPayload where
  | joinRequest (payload : JoinRequestPayload)
  | machineJoined (payload : MachineJoinedPayload)
  | joinCancelled (payload : JoinCancelledPayload)
  | devicePairRequest (payload : DevicePairRequestPayload)
  | signMachineCertForProxy (payload : SignMachineCertForProxyPayload)
  deriving DecidableEq, Repr

/-- Whether a payload is of the type of its event. -/
def OwnerEventPayload.matchesType : OwnerEventPayload → OwnerEventType → Bool
  | joinRequest _, .joinRequest => true
  | machineJoined _, .machineJoined => true
  | joinCancelled _, .joinCancelled => true
  | devicePairRequest _, .devicePairRequest => true
  | signMachineCertForProxy _, .signMachineCertForProxy => true
  | _, _ => false

/-- The version of the events that are written. -/
def ownerEventVersion : UInt8 := 1

/-- An entry of the log. -/
structure OwnerEvent where
  version : UInt8
  cursor : UInt64
  ts : UInt64
  eventType : OwnerEventType
  payload : OwnerEventPayload
  issuerMId : String
  signature : List UInt8
  deriving DecidableEq, Repr

/-- The machine that an event tells of, if it tells that one joined. -/
def OwnerEvent.joinedMachine (event : OwnerEvent) : Option String :=
  match event.payload with
  | .machineJoined payload => some payload.mId
  | _ => none

/-- The canonical encoding of events; what was encoded is decoded again. -/
structure EventCodec where
  encode : OwnerEvent → Except String (List UInt8)
  decode : List UInt8 → Option OwnerEvent
  decode_encode : ∀ {event bytes}, encode event = .ok bytes → decode bytes = some event

/-- The number of bytes of a length. -/
def lengthPrefixBytes : ℕ := 8

/-- The largest encoding of an event. -/
def maxRecordBytes : ℕ := 2 ^ 20

/-- The record of an encoded event. -/
def lengthPrefixed (payload : List UInt8) : List UInt8 :=
  beBytes lengthPrefixBytes payload.length ++ payload

/-- Read the record at the front. -/
def readRecord (codec : EventCodec) (bytes : List UInt8) : Option (OwnerEvent × ℕ) :=
  if lengthPrefixBytes ≤ bytes.length then
    let payloadLen := beNat (bytes.take lengthPrefixBytes)
    let payloadEnd := lengthPrefixBytes + payloadLen
    if payloadLen ≤ maxRecordBytes ∧ payloadEnd ≤ bytes.length then
      match codec.decode ((bytes.take payloadEnd).drop lengthPrefixBytes) with
      | some event =>
        if event.payload.matchesType event.eventType then some (event, payloadEnd) else none
      | none => none
    else none
  else none

theorem readRecord_eq_some {codec : EventCodec} {bytes : List UInt8} {event : OwnerEvent} {n : ℕ} :
    readRecord codec bytes = some (event, n) ↔
      n = lengthPrefixBytes + beNat (bytes.take lengthPrefixBytes) ∧ n ≤ bytes.length ∧
        beNat (bytes.take lengthPrefixBytes) ≤ maxRecordBytes ∧
        codec.decode ((bytes.take n).drop lengthPrefixBytes) = some event ∧
        event.payload.matchesType event.eventType := by
  unfold readRecord
  constructor
  · intro h
    split at h
    · dsimp only at h
      split at h
      · next hlength hfits =>
        split at h
        · next e hdecode =>
          split at h
          · next hmatches =>
            obtain ⟨rfl, rfl⟩ := Prod.mk.inj (Option.some.inj h)
            exact ⟨rfl, hfits.2, hfits.1, hdecode, hmatches⟩
          · cases h
        · cases h
      · cases h
    · cases h
  · rintro ⟨rfl, hle, hmax, hdecode, hmatches⟩
    rw [if_pos (by omega)]
    rw [if_pos ⟨hmax, hle⟩, hdecode]
    dsimp only
    rw [if_pos hmatches]

/-- A record is read the same whatever follows. -/
theorem readRecord_take_append {codec : EventCodec} {bytes : List UInt8} {event : OwnerEvent}
    {n : ℕ} (h : readRecord codec bytes = some (event, n)) (rest : List UInt8) :
    readRecord codec (bytes.take n ++ rest) = some (event, n) := by
  obtain ⟨hn, hle, hmax, hdecode, hmatches⟩ := readRecord_eq_some.mp h
  have hlength : (bytes.take n).length = n := List.length_take_of_le hle
  have hfront : (bytes.take n ++ rest).take lengthPrefixBytes = bytes.take lengthPrefixBytes := by
    rw [List.take_append_of_le_length (by omega), List.take_take, Nat.min_eq_left (by omega)]
  have htake : (bytes.take n ++ rest).take n = bytes.take n := by
    rw [List.take_append_of_le_length (by omega), List.take_of_length_le (by omega)]
  refine readRecord_eq_some.mpr ⟨by rw [hfront]; exact hn, ?_, ?_, ?_, hmatches⟩
  · rw [List.length_append]
    omega
  · rwa [hfront]
  · rwa [htake]

/-- The records of the log. -/
def recordReader (codec : EventCodec) : RecordReader UInt8 OwnerEvent where
  read := readRecord codec
  takes h := by
    obtain ⟨hn, hle, -⟩ := readRecord_eq_some.mp h
    refine ⟨?_, hle⟩
    rw [hn, lengthPrefixBytes]
    omega
  local_read := readRecord_take_append

theorem recordReader_read (codec : EventCodec) (bytes : List UInt8) :
    (recordReader codec).read bytes = readRecord codec bytes := rfl

section

variable {codec : EventCodec} {event : OwnerEvent} {payload : List UInt8}

theorem length_lengthPrefixed (payload : List UInt8) :
    (lengthPrefixed payload).length = lengthPrefixBytes + payload.length := by
  rw [lengthPrefixed, List.length_append, length_beBytes]

theorem beNat_lengthPrefixed (hmax : payload.length ≤ maxRecordBytes) {k : ℕ}
    (hk : lengthPrefixBytes ≤ k) :
    beNat (((lengthPrefixed payload).take k).take lengthPrefixBytes) = payload.length := by
  have hfront : (lengthPrefixed payload).take lengthPrefixBytes =
      beBytes lengthPrefixBytes payload.length := by
    rw [lengthPrefixed, List.take_append_of_le_length (by rw [length_beBytes]),
      List.take_of_length_le (by rw [length_beBytes])]
  rw [List.take_take, Nat.min_eq_left hk, hfront]
  refine beNat_beBytes (Nat.lt_of_le_of_lt hmax ?_)
  decide

/-- The payload of a record that can be written for an event. -/
structure IsRecord (codec : EventCodec) (event : OwnerEvent) (payload : List UInt8) : Prop where
  encoded : codec.encode event = .ok payload
  fits : payload.length ≤ maxRecordBytes
  typed : event.payload.matchesType event.eventType

/-- A record that was written whole is read. -/
theorem readRecord_lengthPrefixed (h : IsRecord codec event payload) :
    readRecord codec (lengthPrefixed payload) = some (event, (lengthPrefixed payload).length) := by
  have hwhole := List.take_length (l := lengthPrefixed payload)
  have hlength := length_lengthPrefixed payload
  have hnat := beNat_lengthPrefixed h.fits (k := (lengthPrefixed payload).length) (by omega)
  rw [hwhole] at hnat
  refine readRecord_eq_some.mpr
    ⟨by rw [hnat, hlength], Nat.le_refl _, by rw [hnat]; exact h.fits, ?_, h.typed⟩
  rw [hwhole, lengthPrefixed, List.drop_append_of_le_length (by rw [length_beBytes]),
    List.drop_of_length_le (by rw [length_beBytes]), List.nil_append]
  exact codec.decode_encode h.encoded

/-- A record that is cut short is not read. -/
theorem readRecord_cut (hmax : payload.length ≤ maxRecordBytes) {k : ℕ}
    (hk : k < (lengthPrefixed payload).length) :
    readRecord codec ((lengthPrefixed payload).take k) = none := by
  cases hread : readRecord codec ((lengthPrefixed payload).take k) with
  | none => rfl
  | some a =>
    obtain ⟨hn, hle, -⟩ := readRecord_eq_some.mp hread
    have hlength := length_lengthPrefixed payload
    rw [List.length_take_of_le (Nat.le_of_lt hk)] at hle
    rw [beNat_lengthPrefixed hmax (by omega)] at hn
    omega

end

end Theyos.OwnerEvents

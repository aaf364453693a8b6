import Mathlib.Data.UInt
import Theyos.Models.Household.Certificate

/-!
# The record of consumed nonces

A household keeps one record of the connection intents it has consumed. The replay key names the
household, the machine that asks, its delegated key and a nonce; the channel, the digest of the
intent and its expiry are kept as evidence beside it.
-/

namespace Theyos.NonceLedger

open Household Machine

/-- Domain of every replay key. -/
def meshIntentNonceKeyDomain : String := "ledger-domain-v1"

/-- Domain of the record. -/
def recordDomain : String := "soyeht/mesh-intent-nonce-ledger/v1"

/-- Version of the record. -/
def recordVersion : UInt8 := 1

/-- The longest name of a delegated key. -/
def maxDelegatedKeyIdBytes : ℕ := 256

/-- The longest record. -/
def maxRecordBytes : ℕ := 8 * 1024 * 1024

/-- The largest capacity. -/
def maxConfiguredEntries : ℕ := 8192

/-- Where the steps of a transaction can fail. -/
inductive MeshIntentNonceCommitStage where
  | workerInFlight
  | dirtyMarkerWrite
  | dirtyMarkerSync
  | tempInspect
  | tempCleanup
  | tempOpen
  | tempWrite
  | tempFlush
  | tempSync
  | rename
  | parentSync
  | readback
  | readbackMismatch
  | cleanMarkerWrite
  | cleanMarkerSync
  | postCommitBinding
  deriving DecidableEq, Repr

/-- Why nothing was consumed. -/
inductive MeshIntentNonceUnavailable where
  | wrongHousehold
  | wrongTrustedFloorHousehold
  | evidenceExpired
  | capacityExhausted
  | generationExhausted
  | lockTimeout
  | deadlineExceeded
  | cancelled
  | lockPoisoned
  | unsafePath
  | unsupportedFilesystem
  | corruptRecord
  | policyMismatch
  | recordTooLarge
  | recoveryRequired
  | io
  | writeFailed (stage : MeshIntentNonceCommitStage)
  deriving DecidableEq, Repr

/-- Where an intent comes from. -/
inductive MeshIntentChannel where
  | dev
  | release
  deriving DecidableEq, Repr

/-- Whether an identifier is its start followed by 52 letters of the alphabet. -/
def isWellFormedId (start s : String) : Bool :=
  match start.toList.isPrefixOf? s.toList with
  | none => false
  | some rest =>
    rest.length == 52 && rest.all fun c => ('a' ≤ c && c ≤ 'z') || ('2' ≤ c && c ≤ '7')

/-- Whether a name of a delegated key may be stored. -/
def isDelegatedKeyId (s : String) : Bool :=
  s.utf8ByteSize != 0 && s.utf8ByteSize ≤ maxDelegatedKeyIdBytes && !s.toList.any isControl

/-- The replay key of an intent. -/
structure MeshIntentNonceKey where
  hhId : HouseholdId
  initiatorMId : MachineId
  delegatedKeyId : String
  nonce : Digest
  hhId_wf : isWellFormedId "hh_" hhId.asStr
  initiatorMId_wf : isWellFormedId "m_" initiatorMId.asStr
  delegatedKeyId_valid : isDelegatedKeyId delegatedKeyId
  deriving DecidableEq

/-- What is kept beside a consumed key. -/
structure MeshIntentNonceEvidence where
  channel : MeshIntentChannel
  intentDigest : Digest
  notAfter : UInt64
  deriving DecidableEq

/-- A replay key as it is stored. -/
structure StoredKeyV1 where
  domain : String
  hhId : HouseholdId
  initiatorMId : MachineId
  delegatedKeyId : String
  nonce : Digest
  deriving DecidableEq

/-- The stored form of a replay key. -/
def StoredKeyV1.from (key : MeshIntentNonceKey) : StoredKeyV1 where
  domain := meshIntentNonceKeyDomain
  hhId := key.hhId
  initiatorMId := key.initiatorMId
  delegatedKeyId := key.delegatedKeyId
  nonce := key.nonce

theorem StoredKeyV1.from_injective {key key' : MeshIntentNonceKey}
    (h : StoredKeyV1.from key = StoredKeyV1.from key') : key = key' := by
  cases key
  cases key'
  simpa [StoredKeyV1.from] using h

/-- A consumed key and its evidence. -/
structure StoredEntryV1 where
  key : StoredKeyV1
  channel : MeshIntentChannel
  intentDigest : Digest
  notAfter : UInt64
  deriving DecidableEq

namespace StoredEntryV1

/-- The evidence of an entry. -/
def evidence (entry : StoredEntryV1) : MeshIntentNonceEvidence :=
  ⟨entry.channel, entry.intentDigest, entry.notAfter⟩

/-- The entry of a key and its evidence. -/
def of (key : MeshIntentNonceKey) (evidence : MeshIntentNonceEvidence) : StoredEntryV1 where
  key := StoredKeyV1.from key
  channel := evidence.channel
  intentDigest := evidence.intentDigest
  notAfter := evidence.notAfter

theorem eq_of {entry : StoredEntryV1} {key : MeshIntentNonceKey}
    (h : entry.key = StoredKeyV1.from key) : entry = of key entry.evidence := by
  cases entry
  cases h
  rfl

end StoredEntryV1

/-- The record of a household. -/
structure LedgerRecordV1 where
  version : UInt8
  domain : String
  hhId : HouseholdId
  capacity : UInt32
  generation : UInt64
  entries : Std.ExtTreeMap String StoredEntryV1

/-- The policy of a ledger. -/
structure MeshIntentNonceLedgerConfig where
  capacity : ℕ
  /-- How long a lock is waited for, in nanoseconds. -/
  lockTimeout : ℕ
  capacity_pos : 0 < capacity
  capacity_le : capacity ≤ maxConfiguredEntries
  lockTimeout_pos : 0 < lockTimeout
  deriving DecidableEq

/-- The record of a household that has consumed nothing. -/
def LedgerRecordV1.empty (hhId : HouseholdId) (config : MeshIntentNonceLedgerConfig) :
    LedgerRecordV1 where
  version := recordVersion
  domain := recordDomain
  hhId := hhId
  capacity := UInt32.ofNat config.capacity
  generation := 1
  entries := ∅

/-- The writer, the reader and the hash. -/
structure Formats where
  /-- The hash of a key's canonical bytes, in hexadecimal. -/
  entryId : StoredKeyV1 → Option String
  writeRecord : LedgerRecordV1 → Option (List UInt8)
  /-- The strict reader; it refuses malformed identifiers. -/
  readRecord : List UInt8 → Option LedgerRecordV1

/-- The identifiers of a record are well formed. -/
structure LedgerRecordV1.Readable (record : LedgerRecordV1) : Prop where
  household : isWellFormedId "hh_" record.hhId.asStr
  entries : ∀ {id : String} {entry : StoredEntryV1}, record.entries[id]? = some entry →
    isWellFormedId "hh_" entry.key.hhId.asStr ∧ isWellFormedId "m_" entry.key.initiatorMId.asStr

/-- The reader gives back what was written, and only well-formed identifiers. -/
structure Formats.Lawful (F : Formats) : Prop where
  readRecord_write : ∀ {record bytes}, record.Readable → F.writeRecord record = some bytes →
    F.readRecord bytes = some record
  readable : ∀ {record bytes}, F.readRecord bytes = some record → record.Readable

section

variable (F : Formats) (hhId : HouseholdId)

/-- What an entry must be to be filed under an identifier. -/
def EntryValid (id : String) (entry : StoredEntryV1) : Prop :=
  entry.key.domain = meshIntentNonceKeyDomain ∧ entry.key.hhId = hhId ∧
    isDelegatedKeyId entry.key.delegatedKeyId ∧ entry.notAfter ≠ 0 ∧
    F.entryId entry.key = some id

instance (id : String) (entry : StoredEntryV1) : Decidable (EntryValid F hhId id entry) :=
  inferInstanceAs (Decidable (_ ∧ _))

/-- Read a record and check what it holds. -/
def decodeAndValidate (config : MeshIntentNonceLedgerConfig) (bytes : List UInt8) :
    Except MeshIntentNonceUnavailable LedgerRecordV1 := do
  let record ← okOr (F.readRecord bytes) .corruptRecord
  require (record.version = recordVersion ∧ record.domain = recordDomain ∧
    record.hhId = hhId ∧ record.generation ≠ 0) .corruptRecord
  require (record.capacity.toNat = config.capacity) .policyMismatch
  require (record.entries.size ≤ config.capacity) .corruptRecord
  require (∀ p ∈ record.entries.toList, EntryValid F record.hhId p.1 p.2) .corruptRecord
  return record

/-- What a record must be, whatever the policy. -/
structure LedgerRecordV1.Valid (record : LedgerRecordV1) : Prop where
  version : record.version = recordVersion
  domain : record.domain = recordDomain
  household : record.hhId = hhId
  generation : record.generation ≠ 0
  size : record.entries.size ≤ record.capacity.toNat
  entries : ∀ {id entry}, record.entries[id]? = some entry → EntryValid F hhId id entry

theorem decodeAndValidate_eq_ok {config : MeshIntentNonceLedgerConfig} {bytes : List UInt8}
    {record : LedgerRecordV1} :
    decodeAndValidate F hhId config bytes = .ok record ↔
      F.readRecord bytes = some record ∧ record.capacity.toNat = config.capacity ∧
        record.Valid F hhId := by
  simp only [decodeAndValidate, eq_ok_iff, Prod.forall,
    Std.ExtTreeMap.mem_toList_iff_getElem?_eq_some]
  constructor
  · rintro ⟨_, hread, ⟨hversion, hdomain, hhousehold, hgeneration⟩, hcapacity, hsize, hentries, rfl⟩
    exact ⟨hread, hcapacity, hversion, hdomain, hhousehold, hgeneration, hcapacity ▸ hsize,
      fun h => hhousehold ▸ hentries _ _ h⟩
  · rintro ⟨hread, hcapacity, h⟩
    exact ⟨record, hread, ⟨h.version, h.domain, h.household, h.generation⟩, hcapacity,
      hcapacity ▸ h.size, fun _ _ he => h.household ▸ h.entries he, rfl⟩

end

namespace LedgerRecordV1

variable {F : Formats} {hhId : HouseholdId} {record : LedgerRecordV1}

/-- The record without the entries that expired below a floor. -/
def prune (record : LedgerRecordV1) (floor : UInt64) : LedgerRecordV1 :=
  { record with entries := record.entries.filter fun _ entry => floor ≤ entry.notAfter }

/-- The record with one more entry, in the next generation. -/
def insert (record : LedgerRecordV1) (generation : UInt64) (id : String) (entry : StoredEntryV1) :
    LedgerRecordV1 :=
  { record with generation := generation, entries := record.entries.insert id entry }

variable {entry : StoredEntryV1}

theorem prune_getElem? {floor : UInt64} {id : String} :
    (record.prune floor).entries[id]? = some entry ↔
      record.entries[id]? = some entry ∧ floor ≤ entry.notAfter := by
  simp [prune, Option.filter_eq_some_iff]

theorem insert_getElem? {generation : UInt64} {id id' : String} :
    (record.insert generation id entry).entries[id']? =
      if id = id' then some entry else record.entries[id']? := by
  simp [insert, Std.ExtTreeMap.getElem?_insert]

theorem empty_valid (config : MeshIntentNonceLedgerConfig) : (empty hhId config).Valid F hhId where
  version := rfl
  domain := rfl
  household := rfl
  generation := (by decide : (1 : UInt64) ≠ 0)
  size := by simp [empty]
  entries := by simp [empty]

theorem Valid.prune (h : record.Valid F hhId) (floor : UInt64) :
    (record.prune floor).Valid F hhId where
  version := h.version
  domain := h.domain
  household := h.household
  generation := h.generation
  size := Nat.le_trans Std.ExtTreeMap.size_filter_le_size h.size
  entries he := h.entries (prune_getElem?.mp he).1

theorem Readable.prune (h : record.Readable) (floor : UInt64) : (record.prune floor).Readable where
  household := h.household
  entries he := h.entries (prune_getElem?.mp he).1

theorem Valid.insert (h : record.Valid F hhId) {generation : UInt64} {id : String}
    (hgeneration : generation ≠ 0)
    (hroom : record.entries.size < record.capacity.toNat) (hentry : EntryValid F hhId id entry) :
    (record.insert generation id entry).Valid F hhId where
  version := h.version
  domain := h.domain
  household := h.household
  generation := hgeneration
  size := Nat.le_trans Std.ExtTreeMap.size_insert_le hroom
  entries he := by
    rw [insert_getElem?] at he
    split at he
    · next hid => exact hid ▸ Option.some.inj he ▸ hentry
    · exact h.entries he

theorem Readable.insert (h : record.Readable) (generation : UInt64) (id : String)
    (key : MeshIntentNonceKey) (evidence : MeshIntentNonceEvidence) :
    (record.insert generation id (.of key evidence)).Readable where
  household := h.household
  entries he := by
    rw [insert_getElem?] at he
    split at he
    · exact Option.some.inj he ▸ ⟨key.hhId_wf, key.initiatorMId_wf⟩
    · exact h.entries he

end LedgerRecordV1

/-- The entry of an unexpired request is valid. -/
theorem EntryValid.of {F : Formats} {key : MeshIntentNonceKey} {evidence : MeshIntentNonceEvidence}
    {id : String} {floor : UInt64} (hfloor : floor < evidence.notAfter)
    (hid : F.entryId (StoredKeyV1.from key) = some id) :
    EntryValid F key.hhId id (.of key evidence) := by
  refine ⟨rfl, rfl, key.delegatedKeyId_valid, ?_, hid⟩
  rintro (h : evidence.notAfter = 0)
  rw [h] at hfloor
  exact absurd hfloor (UInt64.not_lt.mpr UInt64.zero_le)

end Theyos.NonceLedger

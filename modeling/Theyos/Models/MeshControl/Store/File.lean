import Theyos.Core.Cbor.Wire
import Theyos.Models.MeshControl.Store.Format

/-!
# The file-backed store

One record file, replaced by renaming a synced temporary file over it under the sibling process
lock. The operating system's answers are part of the call, and a failed rename may still have
taken effect. The content of the record path is the whole state.
-/

namespace Theyos.MeshControl

open Cbor

/-- The content of the record path. -/
abbrev Disk := Option (List UInt8)

/-- What a load found. -/
inductive LoadOutcome where
  | missing
  | exact (record : MeshSignerControlRecordV1)
  | corrupt
  deriving DecidableEq, Repr

/-- What a replacement can say about its effect. -/
inductive ReplaceOutcome where
  | committed
  | knownNoEffect
  | mayHaveTakenEffect
  deriving DecidableEq, Repr

/-- What the file system answered to a rename. -/
inductive RenameAnswer where
  | done
  | failed
  /-- The error was reported although the new content is in place. -/
  | failedAfterEffect
  deriving DecidableEq, Repr

/-- The operating system's answers to one replacement. -/
structure ReplaceAnswers where
  /-- The process lock was obtained. -/
  locked : Bool
  /-- The record file passed the path checks and could be read. -/
  readable : Bool
  /-- The temporary file was created. -/
  created : Bool
  /-- The temporary file was written and synced. -/
  written : Bool
  renamed : RenameAnswer
  /-- The parent directory was synced. -/
  synced : Bool
  deriving DecidableEq, Repr

/-- A store bound to one identity and purpose, with the libraries it runs on. -/
structure FileBackedStore where
  hashes : Hashes
  cbor : Ciborium
  serde : Serde MeshSignerControlRecordV1
  identity : ControlIdentity
  purpose : PurposeId

/-- Put bytes at the record path through a synced temporary file. -/
def placeBytes (disk : Disk) (answers : ReplaceAnswers) (bytes : List UInt8) :
    ReplaceOutcome × Disk :=
  if !answers.created || !answers.written then (.knownNoEffect, disk)
  else
    match answers.renamed with
    | .failed => (.mayHaveTakenEffect, disk)
    | .failedAfterEffect => (.mayHaveTakenEffect, some bytes)
    | .done => (if answers.synced then .committed else .mayHaveTakenEffect, some bytes)

theorem placeBytes_cases (disk : Disk) (answers : ReplaceAnswers) (bytes : List UInt8) :
    (placeBytes disk answers bytes).2 = disk ∧ (placeBytes disk answers bytes).1 ≠ .committed ∨
      (placeBytes disk answers bytes).2 = some bytes ∧
        (placeBytes disk answers bytes).1 ≠ .knownNoEffect := by
  unfold placeBytes
  by_cases hwritten : (!answers.created || !answers.written) = true
  · rw [if_pos hwritten]
    exact .inl ⟨rfl, nofun⟩
  · rw [if_neg hwritten]
    cases answers.renamed with
    | failed => exact .inl ⟨rfl, nofun⟩
    | failedAfterEffect => exact .inr ⟨rfl, nofun⟩
    | done => cases answers.synced <;> exact .inr ⟨rfl, nofun⟩

namespace FileBackedStore

variable (st : FileBackedStore)

/-- The bytes this store writes for a record. -/
def bytes (r : MeshSignerControlRecordV1) : Option (List UInt8) :=
  toCanonicalBytes st.cbor st.serde r

/-- The pristine record of this store's identity and purpose. -/
def bootstrap : MeshSignerControlRecordV1 := .bootstrap st.identity st.purpose

variable (disk : Disk)

/-- Load the record, if the file holds one of this store in canonical form. -/
def loadCanonical (readable : Bool) : LoadOutcome :=
  match readable, disk with
  | false, _ => .corrupt
  | true, none => .missing
  | true, some bytes =>
    match fromCanonicalBytes st.hashes st.cbor st.serde bytes with
    | some rec =>
      if rec.identity = st.identity ∧ rec.purpose = st.purpose then .exact rec else .corrupt
    | none => .corrupt

/-- Whether the loaded content admits a write of `new` at the expected revision. -/
def admitsWrite (loaded : LoadOutcome) (expectedRevision : UInt64)
    (new : MeshSignerControlRecordV1) : Bool :=
  match loaded with
  | .missing => expectedRevision = initialRevision ∧ new = st.bootstrap
  | .exact cur =>
    cur.revision = expectedRevision ∧
      if new.revision = cur.revision then new = cur
      else some new.revision = checkedAdd cur.revision 1
  | .corrupt => false

/-- Replace the record at an expected revision; the second component is the new content. -/
def replaceExact (answers : ReplaceAnswers) (expectedRevision : UInt64)
    (new : MeshSignerControlRecordV1) : ReplaceOutcome × Disk :=
  if new.identity ≠ st.identity ∨ new.purpose ≠ st.purpose then (.knownNoEffect, disk)
  else if !answers.locked then (.knownNoEffect, disk)
  else if !st.admitsWrite (st.loadCanonical disk answers.readable) expectedRevision new then
    (.knownNoEffect, disk)
  else
    match st.bytes new with
    | none => (.knownNoEffect, disk)
    | some bytes => placeBytes disk answers bytes

/-- What a replacement can do: leave the content and not commit, or write the canonical bytes
of an admitted record. -/
theorem replaceExact_cases (answers : ReplaceAnswers) (expectedRevision : UInt64)
    (new : MeshSignerControlRecordV1) :
    (st.replaceExact disk answers expectedRevision new).2 = disk ∧
        (st.replaceExact disk answers expectedRevision new).1 ≠ .committed ∨
      ∃ bytes, st.bytes new = some bytes ∧
        st.admitsWrite (st.loadCanonical disk answers.readable) expectedRevision new ∧
        (st.replaceExact disk answers expectedRevision new).2 = some bytes ∧
        (st.replaceExact disk answers expectedRevision new).1 ≠ .knownNoEffect := by
  unfold replaceExact
  split_ifs with hbound hlocked hadmits
  · exact .inl ⟨rfl, nofun⟩
  · exact .inl ⟨rfl, nofun⟩
  · exact .inl ⟨rfl, nofun⟩
  · cases hbytes : st.bytes new with
    | none => exact .inl ⟨rfl, nofun⟩
    | some bytes =>
      rcases placeBytes_cases disk answers bytes with hsame | hplaced
      · exact .inl hsame
      · exact .inr ⟨bytes, rfl, by simpa using hadmits, hplaced⟩

/-- The store's libraries behave as documented. -/
def Derived : Prop := Derives st.cbor st.serde

/-- The path holds the bytes of a record, or nothing. -/
def Holds (r : MeshSignerControlRecordV1) : Prop :=
  ∃ bytes, st.bytes r = some bytes ∧ disk = some bytes

variable {st}

variable (hD : st.Derived)

include hD

/-- A path holds the bytes of at most one record. -/
theorem Holds.unique {disk : Disk} {r r' : MeshSignerControlRecordV1}
    (h : st.Holds disk r) (h' : st.Holds disk r') : r = r' := by
  obtain ⟨bytes, hr, rfl⟩ := h
  obtain ⟨_, hr', heq⟩ := h'
  obtain ⟨v, hv, _, hwrite, hdec⟩ := hD.stored hr
  obtain ⟨v', hv', _, hwrite', hdec'⟩ := hD.stored hr'
  cases heq
  have hread := hD.lawful.fromReader_intoWriter hv hwrite
  have hread' := hD.lawful.fromReader_intoWriter hv' hwrite'
  cases hread.symm.trans hread'
  exact Option.some.inj (hdec.symm.trans hdec')

/-- Only the record whose bytes the path holds can be loaded from it. -/
theorem Holds.eq_of_load {disk : Disk} {readable : Bool}
    {r cur : MeshSignerControlRecordV1} (h : st.Holds disk r)
    (hload : st.loadCanonical disk readable = .exact cur) : cur = r := by
  obtain ⟨bytes, hr, rfl⟩ := h
  cases readable with
  | false => cases hload
  | true =>
    rw [loadCanonical, hD.fromCanonicalBytes_toCanonicalBytes hr] at hload
    split_ifs at hload with hinv
    simp only at hload
    split_ifs at hload
    exact (LoadOutcome.exact.inj hload).symm

/-- A record of this store that passes the loader's check is loaded as written. -/
theorem Holds.load {disk : Disk} {r : MeshSignerControlRecordV1}
    (h : st.Holds disk r) (hsame : r.identity = st.identity ∧ r.purpose = st.purpose)
    (hinv : invariantsHold st.hashes r = true) : st.loadCanonical disk true = .exact r := by
  obtain ⟨bytes, hr, rfl⟩ := h
  rw [loadCanonical, hD.fromCanonicalBytes_toCanonicalBytes hr, if_pos hinv]
  exact if_pos hsame

end FileBackedStore

/-- No fault at all. -/
def ReplaceAnswers.clean : ReplaceAnswers := ⟨true, true, true, true, .done, true⟩

/-- A small store over the deterministic library. -/
def smallStore : FileBackedStore :=
  ⟨fieldHashes, deterministic, Format.controlRecord.serde, ⟨"h", "m", .dev⟩, .meshSession⟩

theorem smallStore_derived : smallStore.Derived :=
  ⟨deterministic_lawful, Format.controlRecord.serde_derived⟩

end Theyos.MeshControl

import Theyos.Models.NonceLedger.Ledger

/-!
# The protocol of the two markers

Whatever a loss of power leaves of the record can be read, and wherever the marker may say that
the record lasts, one content is all that can be left. Every transaction keeps this and adds at
most one record made from the record it read.
-/

namespace Theyos.NonceLedger

open Household Machine LedgerRecordV1
open Roster (TrustedWallFloor)

variable (F : Formats) (hhId : HouseholdId)

/-- The content reads as a valid record. -/
def Wholesome (content : List UInt8) : Prop :=
  ∃ record, F.readRecord content = some record ∧ record.Valid F hhId

/-- Every content that can be left is wholesome, and a marker that says that one lasts is right. -/
structure Disk.Sound (disk : Disk) : Prop where
  wholesome : ∀ bytes, some bytes ∈ disk.record.survivors → Wholesome F hhId bytes
  clean : markerClean ∈ disk.marker.survivors →
    ∃ bytes, ∀ c ∈ disk.record.survivors, c = some bytes

/-- The files are sound, and nothing new can be left of the record. -/
structure Disk.Within (disk after : Disk) : Prop where
  sound : after.Sound F hhId
  record : ∀ c ∈ after.record.survivors, c ∈ disk.record.survivors

/-- The files are sound, and one content is all that can be left. -/
structure Disk.Lasts (content : List UInt8) (after : Disk) : Prop where
  sound : after.Sound F hhId
  record : ∀ c ∈ after.record.survivors, c = some content

variable {F hhId} {disk after : Disk} {content : List UInt8}

theorem Disk.Lasts.within (h : after.Lasts F hhId content)
    (hmem : some content ∈ disk.record.survivors) : disk.Within F hhId after :=
  ⟨h.sound, fun c hc => h.record c hc ▸ hmem⟩

theorem Disk.Lasts.visible (h : disk.Lasts F hhId content) : disk.record.visible = some content :=
  h.record _ disk.record.visible_mem_survivors

namespace Disk.Sound

/-- Fewer contents are sound where the markers are the same. -/
theorem shrink (h : disk.Sound F hhId)
    (hrecord : ∀ c ∈ after.record.survivors, c ∈ disk.record.survivors)
    (hmarker : markerClean ∈ after.marker.survivors → markerClean ∈ disk.marker.survivors) :
    after.Sound F hhId where
  wholesome bytes hbytes := h.wholesome bytes (hrecord _ hbytes)
  clean hclean := by
    obtain ⟨bytes, hbytes⟩ := h.clean (hmarker hclean)
    exact ⟨bytes, fun c hc => hbytes c (hrecord c hc)⟩

/-- Wherever one content is all that can be left, any marker is right. -/
theorem remark (h : disk.Lasts F hhId content) (hrecord : after.record = disk.record) :
    after.Lasts F hhId content where
  sound := {
    wholesome := fun bytes hbytes => h.sound.wholesome bytes (hrecord ▸ hbytes)
    clean := fun _ => ⟨content, fun c hc => h.record c (hrecord ▸ hc)⟩ }
  record c hc := h.record c (hrecord ▸ hc)

end Disk.Sound

section

/-- What a failed replacement leaves: what could be left before, and the new content when it is
uncertain. -/
def ReplaceLeaves (F : Formats) (hhId : HouseholdId) (disk : Disk) (new : List UInt8) :
    WriteFailure → Disk → Prop
  | .notCommitted _, after => disk.Within F hhId after
  | .uncertain _, after => after.Sound F hhId ∧
      ∀ c ∈ after.record.survivors, c = some new ∨ c ∈ disk.record.survivors

/-- The record can be replaced unless the marker may say that another one lasts. -/
theorem replaceRecord_spec (faults : ReplaceFaults) {new : List UInt8} (hsound : disk.Sound F hhId)
    (hnew : Wholesome F hhId new)
    (hmarker : markerClean ∈ disk.marker.survivors → some new ∈ disk.record.survivors) :
    Ends (· = disk) (atomicReplace faults new) (fun _ after => after.Lasts F hhId new)
      (ReplaceLeaves F hhId disk new) := by
  have hwholesome : ∀ after : Disk,
      (∀ c ∈ after.record.survivors, c = some new ∨ c ∈ disk.record.survivors) →
      ∀ bytes, some bytes ∈ after.record.survivors → Wholesome F hhId bytes := by
    intro after hrecord bytes hbytes
    rcases hrecord _ hbytes with heq | hmem
    · exact Option.some.inj heq ▸ hnew
    · exact hsound.wholesome bytes hmem
  refine (atomicReplace_spec faults new).weaken ?_ ?_
  · rintro _ after ⟨hrecord, -⟩
    have hall : ∀ c ∈ after.record.survivors, c = some new := by simp [hrecord]
    exact ⟨⟨hwholesome after fun c hc => .inl (hall c hc), fun _ => ⟨new, hall⟩⟩, hall⟩
  · rintro (stage | stage) after h
    · exact ⟨hsound.shrink h.record fun hclean => h.marker ▸ hclean, h.record⟩
    · refine ⟨⟨hwholesome after h.2, fun hclean => ?_⟩, h.2⟩
      rw [h.1] at hclean
      obtain ⟨bytes, hall⟩ := hsound.clean hclean
      have hsame := hall _ (hmarker hclean)
      exact ⟨bytes, fun c hc => (h.2 c hc).elim (fun heq => heq.trans hsame) (hall c)⟩

/-- A record that lasts still does after a write of the marker. -/
theorem writeMarker_lasts {ε : Type} (fate : MarkerFate) (marker : List UInt8)
    (writeError syncError : ε) :
    Ends (fun disk => disk.Lasts F hhId content) (writeMarker fate marker writeError syncError)
      (fun _ after => after.Lasts F hhId content) (fun _ after => after.Lasts F hhId content) :=
  fun before hbefore =>
    (writeMarker_spec fate marker writeError syncError).weaken
      (fun _ _ h => Disk.Sound.remark hbefore h.1) (fun _ _ h => Disk.Sound.remark hbefore h.1)
      before rfl

/-- Writing the record that is seen once more adds nothing, and makes it last. -/
theorem restabilize_spec {ε : Type} {f : WriteFailure → ε} {g : Unit → ε} (faults : ReplaceFaults)
    (fate : MarkerFate) (hsound : disk.Sound F hhId)
    (hvisible : disk.record.visible = some content) :
    Ends (· = disk)
      ((atomicReplace faults content).adapt f >>= fun _ =>
        (writeMarkerRaw fate markerClean).adapt g)
      (fun _ after => after.Lasts F hhId content) (fun _ => disk.Within F hhId) := by
  have hmem : some content ∈ disk.record.survivors :=
    hvisible ▸ disk.record.visible_mem_survivors
  refine .bind
    (.adapt ((replaceRecord_spec faults hsound (hsound.wholesome _ hmem) fun _ => hmem).mono
      (fun _ h => h) (fun _ _ h => h) ?_)) fun _ => ?_
  · rintro (stage | stage) after h
    · exact h
    · exact ⟨h.1, fun c hc => (h.2 c hc).elim (fun heq => heq ▸ hmem) id⟩
  · exact .adapt ((writeMarker_lasts fate markerClean () ()).weakenError
      fun _ _ h => h.within hmem)

end

section

variable {config : MeshIntentNonceLedgerConfig} {env : Circumstances}

theorem readMarker_spec (fails : Bool) :
    Ends (· = disk) (readMarker fails)
      (fun marker after => after = disk ∧
        (marker = some markerClean → disk.marker.visible = markerClean))
      (fun _ after => after = disk) := by
  refine .require_bind (fun _ => .get_bind fun before hbefore => .pure fun after hafter => ?_)
    fun _ h => h
  subst hbefore
  refine ⟨hafter, fun hmarker => ?_⟩
  split at hmarker
  · cases hmarker
  · have htake : before.marker.visible.take 32 = markerClean := Option.some.inj hmarker
    have hlength := congrArg List.length htake
    rwa [List.take_of_length_le (by simp [markerClean] at hlength; omega)] at htake

theorem readAndValidateRecord_spec (fault : Option ReadFault) :
    Ends (· = disk) (readAndValidateRecord F hhId config fault)
      (fun record after => after = disk ∧ ∃ bytes, disk.record.visible = some bytes ∧
        decodeAndValidate F hhId config bytes = .ok record)
      (fun _ after => after = disk) := by
  refine .bind (readRecordBytes_spec fault) fun bytes => ?_
  exact .ofExcept (fun record h _ hs => ⟨hs.1, bytes, hs.2, h⟩) fun _ _ _ hs => hs.1

theorem Disk.Sound.within (h : disk.Sound F hhId) : disk.Within F hhId disk := ⟨h, fun _ h => h⟩

theorem recoverVisibleForConsume_spec (hsound : disk.Sound F hhId) :
    Ends (· = disk) (recoverVisibleForConsume F hhId config env)
      (fun _ after => ∃ bytes, some bytes ∈ disk.record.survivors ∧ after.Lasts F hhId bytes)
      (fun _ => disk.Within F hhId) := by
  refine .bind ((readRecordBytes_spec env.recoverFault).weakenError
    fun _ _ h => h ▸ hsound.within) fun bytes => ?_
  refine .ofExcept_bind (fun _ _ => ?_) fun _ _ _ h => h.1 ▸ hsound.within
  rintro _ ⟨rfl, hbytes⟩
  refine (restabilize_spec env.recoverReplace env.recoverMarker hsound hbytes).weaken
    (fun _ after h => ⟨bytes, ?_, h⟩) (fun _ _ h => h) _ rfl
  exact hbytes ▸ Volatile.visible_mem_survivors _

/-- A record that is loaded is all that can be left, and could be left before. -/
theorem loadCleanRecord_spec (hsound : disk.Sound F hhId) :
    Ends (· = disk) (loadCleanRecord F hhId config env)
      (fun record after => ∃ bytes, some bytes ∈ disk.record.survivors ∧
        after.Lasts F hhId bytes ∧ decodeAndValidate F hhId config bytes = .ok record)
      (fun _ => disk.Within F hhId) := by
  have hvisible := disk.record.visible_mem_survivors
  refine .bind (.adapt ((readMarker_spec env.markerFault).weakenError
    fun _ _ h => h ▸ hsound.within)) fun marker => ?_
  split
  · rename_i hmarker
    rintro _ ⟨rfl, hclean⟩
    refine (readAndValidateRecord_spec env.recordFault).weaken ?_
      (fun _ _ h => h ▸ hsound.within) _ rfl
    rintro record _ ⟨rfl, bytes, hbytes, hdecode⟩
    obtain ⟨bytes', hall⟩ := hsound.clean (hclean hmarker ▸ Volatile.visible_mem_survivors _)
    obtain rfl : bytes' = bytes := Option.some.inj ((hall _ hvisible).symm.trans hbytes)
    exact ⟨bytes', hbytes ▸ hvisible, ⟨hsound, hall⟩, hdecode⟩
  · refine .bind (Q := fun _ after => ∃ bytes, some bytes ∈ disk.record.survivors ∧
        after.Lasts F hhId bytes) ((recoverVisibleForConsume_spec hsound).mono (fun _ h => h.1)
      (fun _ _ h => h) fun _ _ h => h) fun _ => ?_
    rintro before ⟨bytes, hmem, hlasts⟩
    refine (readAndValidateRecord_spec env.recordFault).weaken ?_ ?_ before rfl
    · rintro record _ ⟨rfl, bytes', hbytes', hdecode⟩
      obtain rfl : bytes = bytes' := Option.some.inj (hlasts.visible.symm.trans hbytes')
      exact ⟨bytes, hmem, hlasts, hdecode⟩
    · rintro _ _ rfl
      exact hlasts.within hmem

end

/-- What can be left once an attempt to write is over. -/
def CommitLeaves (F : Formats) (hhId : HouseholdId) (old new : List UInt8) :
    MeshIntentNonceConsumeOutcome → Disk → Prop
  | .committed _, after => after.Lasts F hhId new
  | .mayHaveTakenEffect _, after => after.Sound F hhId ∧
      ∀ c ∈ after.record.survivors, c = some new ∨ c = some old
  | .alreadyConsumed _, _ => False
  | .unavailable _, _ => False

/-- A commit leaves the new record, one that may have been made leaves either, and one that
failed leaves the old record. -/
theorem commitSemantic_spec {env : Circumstances} {old new : List UInt8} {generation : UInt64}
    (hold : disk.Lasts F hhId old) (hnew : Wholesome F hhId new) :
    Ends (· = disk) (commitSemantic env new generation)
      (CommitLeaves F hhId old new) (fun _ after => after.Lasts F hhId old) := by
  refine .bind (Q := fun _ after => after.record = disk.record ∧
    after.marker = .settled markerDirty) (.adapt ((writeMarker_spec env.dirtyMarker markerDirty _
      _).mono (fun _ h => h) (fun _ _ h => h) fun _ _ h => Disk.Sound.remark hold h.1)) fun _ => ?_
  rintro dirty ⟨hrecord, hmarker⟩
  have hdirty : dirty.Lasts F hhId old := Disk.Sound.remark hold hrecord
  have hclean : markerClean ∈ dirty.marker.survivors → some new ∈ dirty.record.survivors := by
    intro hclean
    rw [hmarker] at hclean
    exact absurd (List.mem_singleton.mp hclean) (by decide)
  refine Ends.attempt_bind (replaceRecord_spec env.replace hdirty.sound hnew hclean) (fun _ => ?_)
    (fun failure => ?_) dirty rfl
  · have heither : ∀ stage (after : Disk), after.Lasts F hhId new →
        CommitLeaves F hhId old new (.mayHaveTakenEffect stage) after :=
      fun _ after h => ⟨h.sound, fun c hc => .inl (h.record c hc)⟩
    refine Ends.attempt_bind (writeMarker_lasts env.cleanMarker markerClean _ _)
      (fun _ => ?_) fun stage => ?_
    · dsimp only
      split
      · exact .pure (heither _)
      · exact .pure fun _ h => h
    · exact .pure (heither stage)
  · rcases failure with stage | stage
    · exact .throw fun after h => ⟨h.sound, fun c hc => hdirty.record c (h.record c hc)⟩
    · exact .pure fun after h => ⟨h.1, fun c hc => (h.2 c hc).imp_right (hdirty.record c)⟩

section

variable (F) in
/-- The content holds a key with its evidence. -/
def Holds (key : MeshIntentNonceKey) (evidence : MeshIntentNonceEvidence) (content : List UInt8) :
    Prop :=
  ∃ record id, F.readRecord content = some record ∧ F.entryId (StoredKeyV1.from key) = some id ∧
    record.entries[id]? = some (.of key evidence)

variable (F) in
/-- The second content is made from the first by an attempt to consume a nonce. -/
def Extends (request : WorkerRequest) (old new : List UInt8) : Prop :=
  ∃ record id generation, F.readRecord old = some record ∧
    F.entryId (StoredKeyV1.from request.key) = some id ∧
    (record.prune request.trustedFloor.unixSeconds).entries[id]? = none ∧
    F.readRecord new = some ((record.prune request.trustedFloor.unixSeconds).insert generation id
      (.of request.key request.evidence))

variable {request : WorkerRequest} {old new : List UInt8} {key : MeshIntentNonceKey}
  {evidence : MeshIntentNonceEvidence}

namespace Extends

variable (h : Extends F request old new)

include h

/-- The new content holds the key of the attempt. -/
theorem holds : Holds F request.key request.evidence new := by
  obtain ⟨record, id, generation, -, hid, -, hnew⟩ := h
  exact ⟨_, id, hnew, hid, by rw [insert_getElem?, if_pos rfl]⟩

/-- A key that has not expired below the floor stays. -/
theorem keeps (hkey : Holds F key evidence old)
    (hfloor : request.trustedFloor.unixSeconds ≤ evidence.notAfter) :
    Holds F key evidence new := by
  obtain ⟨record, id, generation, hread, hid, hnone, hnew⟩ := h
  obtain ⟨_, id', hread', hid', hentry⟩ := hkey
  cases hread.symm.trans hread'
  have hkept := prune_getElem?.mpr ⟨hentry, hfloor⟩
  refine ⟨_, id', hnew, hid', ?_⟩
  rw [insert_getElem?, if_neg, hkept]
  rintro rfl
  cases hnone.symm.trans hkept

/-- A key of the new content is the key of the attempt or was held before. -/
theorem origin (hkey : Holds F key evidence new) :
    key = request.key ∧ evidence = request.evidence ∨ Holds F key evidence old := by
  obtain ⟨record, id, generation, hread, hid, hnone, hnew⟩ := h
  obtain ⟨_, id', hread', hid', hentry⟩ := hkey
  cases hnew.symm.trans hread'
  rw [insert_getElem?] at hentry
  split at hentry
  · have hof := (Option.some.inj hentry).symm
    exact .inl ⟨StoredKeyV1.from_injective (congrArg StoredEntryV1.key hof),
      congrArg StoredEntryV1.evidence hof⟩
  · exact .inr ⟨record, id', hread, hid', (prune_getElem?.mp hentry).1⟩

end Extends

theorem WorkerRequest.check_eq_ok :
    request.check hhId = .ok () ↔ request.key.hhId = hhId ∧ request.trustedFloor.hhId = hhId ∧
      request.trustedFloor.unixSeconds < request.evidence.notAfter := by
  simp only [WorkerRequest.check, eq_ok_iff]

theorem insertAndCommit_spec {config : MeshIntentNonceLedgerConfig} {env : Circumstances}
    {loaded : LedgerRecordV1} {id : String} (hF : F.Lawful) (hrequest : request.check hhId = .ok ())
    (hold : disk.Lasts F hhId old) (hloaded : decodeAndValidate F hhId config old = .ok loaded)
    (hid : F.entryId (StoredKeyV1.from request.key) = some id)
    (hnone : (loaded.prune request.trustedFloor.unixSeconds).entries[id]? = none) :
    Ends (· = disk)
      (insertAndCommit F config env request (loaded.prune request.trustedFloor.unixSeconds) id)
      (fun outcome after => ∃ new, Extends F request old new ∧
        CommitLeaves F hhId old new outcome after)
      (fun _ after => after.Lasts F hhId old) := by
  obtain ⟨rfl, -, hfloor⟩ := WorkerRequest.check_eq_ok.mp hrequest
  obtain ⟨hread, hcapacity, hvalid⟩ := (decodeAndValidate_eq_ok _ _).mp hloaded
  have hkept : ∀ s : Disk, s = disk → s.Lasts F request.key.hhId old := fun _ h => h ▸ hold
  refine .require_bind (fun hroom => ?_) hkept
  refine .ofExcept_bind (fun generation hgeneration => ?_) fun _ _ => hkept
  refine .ofExcept_bind (fun new hnew => ?_) fun _ _ => hkept
  refine .require_bind (fun _ => ?_) hkept
  rw [okOr_eq_ok] at hgeneration hnew
  have hpositive : generation ≠ 0 := by
    rintro rfl
    have hsum := checkedAdd_one_eq_some.mp hgeneration
    exact absurd hsum.symm (Nat.succ_ne_zero _)
  have hreadable := ((hF.readable hread).prune request.trustedFloor.unixSeconds).insert
    generation id request.key request.evidence
  have hnewRead := hF.readRecord_write hreadable hnew
  have hnewValid := (hvalid.prune request.trustedFloor.unixSeconds).insert hpositive
    (hcapacity ▸ hroom) (EntryValid.of hfloor hid)
  refine (commitSemantic_spec hold ⟨_, hnewRead, hnewValid⟩).weaken
    (fun outcome after h => ⟨new, ?_, h⟩) fun _ _ h => h
  exact ⟨loaded, id, generation, hread, hid, hnone, hnewRead⟩

/-- What an attempt leaves: the key in every content when it is committed, the key in the only
content when it is there already, and the content before it or the one it made otherwise. -/
def ConsumeLeaves (F : Formats) (hhId : HouseholdId) (disk : Disk) (request : WorkerRequest) :
    MeshIntentNonceConsumeOutcome → Disk → Prop
  | .committed _, after => ∃ old new, some old ∈ disk.record.survivors ∧
      Extends F request old new ∧ after.Lasts F hhId new
  | .mayHaveTakenEffect _, after => after.Sound F hhId ∧
      ∃ old new, some old ∈ disk.record.survivors ∧ Extends F request old new ∧
        ∀ c ∈ after.record.survivors, c = some new ∨ c = some old
  | .alreadyConsumed evidence, after => ∃ old, some old ∈ disk.record.survivors ∧
      after.Lasts F hhId old ∧ Holds F request.key evidence old
  | .unavailable _, after => disk.Within F hhId after

/-- What an attempt leaves, by what became of it. -/
theorem consumeInWorker_spec {config : MeshIntentNonceLedgerConfig} {env : Circumstances}
    (hF : F.Lawful) (hrequest : request.check hhId = .ok ()) (hsound : disk.Sound F hhId) :
    Ends (· = disk) (consumeInWorker F hhId config env request)
      (ConsumeLeaves F hhId disk request) (fun _ => disk.Within F hhId) := by
  refine .bind (Q := fun _ after => after = disk) ?_ fun _ => ?_
  · cases hacquire : env.acquire with
    | some reason => exact .throw fun _ h => h ▸ hsound.within
    | none => exact .pure fun _ h => h
  refine .bind (loadCleanRecord_spec hsound) fun loaded => ?_
  rintro before ⟨old, hmem, hold, hloaded⟩
  suffices h : Ends (· = before) _ _ _ from h before rfl
  refine .ofExcept_bind (fun id hid => ?_) fun _ _ _ h => h ▸ hold.within hmem
  rw [okOr_eq_ok] at hid
  have hread := ((decodeAndValidate_eq_ok _ _).mp hloaded).1
  split
  · rename_i existing hexisting
    refine .require_bind (fun hkey => .pure fun _ h => ?_) fun _ h => h ▸ hold.within hmem
    have hentry := (prune_getElem?.mp hexisting).1
    exact ⟨old, hmem, h ▸ hold, loaded, id, hread, hid, StoredEntryV1.eq_of hkey ▸ hentry⟩
  · rename_i hnone
    refine (insertAndCommit_spec hF hrequest hold hloaded hid hnone).weaken ?_
      fun _ _ h => h.within hmem
    rintro (generation | evidence | stage | reason) after ⟨new, hextends, hleaves⟩
    · exact ⟨old, new, hmem, hextends, hleaves⟩
    · exact hleaves.elim
    · exact ⟨hleaves.1, old, new, hmem, hextends, hleaves.2⟩
    · exact hleaves.elim

end

section

/-- What the opening of a ledger leaves: what could be left before, and an empty record only where
there was none. -/
structure OpenLeaves (F : Formats) (hhId : HouseholdId) (config : MeshIntentNonceLedgerConfig)
    (disk after : Disk) : Prop where
  sound : after.Sound F hhId
  record : ∀ c ∈ after.record.survivors, c ∈ disk.record.survivors ∨
    disk.record.visible = none ∧ ∃ bytes, c = some bytes ∧
      F.readRecord bytes = some (.empty hhId config)

variable {config : MeshIntentNonceLedgerConfig} {env : OpenCircumstances}

theorem Disk.Within.openLeaves (h : disk.Within F hhId after) :
    OpenLeaves F hhId config disk after :=
  ⟨h.sound, fun c hc => .inl (h.record c hc)⟩

theorem initializeFreshUnderLock_spec (hF : F.Lawful) (hhhId : isWellFormedId "hh_" hhId.asStr)
    (hsound : disk.Sound F hhId) (hnone : disk.record.visible = none) :
    Ends (· = disk) (initializeFreshUnderLock F hhId config env)
      (fun _ after => OpenLeaves F hhId config disk after ∧ ∃ bytes, after.Lasts F hhId bytes)
      (fun _ => OpenLeaves F hhId config disk) := by
  refine .bind (Q := fun _ after => after.record = disk.record ∧
    after.marker = .settled markerInitializing) (.adapt ((writeMarker_spec env.initializingMarker
      markerInitializing _ _).weakenError ?_)) fun _ => ?_
  · rintro _ after ⟨hrecord, hmarker⟩
    refine ⟨hsound.shrink (fun _ hc => hrecord ▸ hc) fun hclean => ?_, fun c hc => .inl (hrecord ▸ hc)⟩
    exact (hmarker _ hclean).resolve_left (by decide)
  have hclean : ∀ marked : Disk, marked.marker = .settled markerInitializing →
      markerClean ∉ marked.marker.survivors := by
    intro marked hmarker hclean
    rw [hmarker] at hclean
    exact absurd (List.mem_singleton.mp hclean) (by decide)
  refine .ofExcept_bind (fun bytes hbytes => ?_) ?_
  · rw [okOr_eq_ok] at hbytes
    have hread := hF.readRecord_write ⟨hhhId, by simp [empty]⟩ hbytes
    have hwholesome : Wholesome F hhId bytes := ⟨_, hread, empty_valid config⟩
    rintro marked ⟨hrecord, hmarker⟩
    have hmarked : marked.Sound F hhId :=
      hsound.shrink (fun _ hc => hrecord ▸ hc) fun h => absurd h (hclean marked hmarker)
    have hfresh : ∀ c, c = some bytes → c ∈ disk.record.survivors ∨ disk.record.visible = none ∧
        ∃ bytes, c = some bytes ∧ F.readRecord bytes = some (.empty hhId config) :=
      fun c hc => .inr ⟨hnone, bytes, hc, hread⟩
    refine Ends.bind
      (.adapt ((replaceRecord_spec env.replace hmarked hwholesome fun h =>
        absurd h (hclean marked hmarker)).mono (fun _ h => h) (fun _ _ h => h) ?_))
      (fun _ => .adapt ((writeMarker_lasts env.cleanMarker markerClean () ()).weaken
        ?_ ?_)) marked rfl
    · rintro (stage | stage) after h
      · exact ⟨h.sound, fun c hc => .inl (hrecord ▸ h.record c hc)⟩
      · exact ⟨h.1, fun c hc => (h.2 c hc).elim (hfresh c) fun hmem => .inl (hrecord ▸ hmem)⟩
    · exact fun _ after h => ⟨⟨h.sound, fun c hc => hfresh c (h.record c hc)⟩, bytes, h⟩
    · exact fun _ after h => ⟨h.sound, fun c hc => hfresh c (h.record c hc)⟩
  · rintro _ - after ⟨hrecord, hmarker⟩
    exact ⟨hsound.shrink (fun _ hc => hrecord ▸ hc) fun h => absurd h (hclean after hmarker),
      fun c hc => .inl (hrecord ▸ hc)⟩

/-- What the opening of a ledger leaves; when it succeeds, one content is all that can be left. -/
theorem initializeOrRecover_spec (hF : F.Lawful) (hhhId : isWellFormedId "hh_" hhId.asStr)
    (hsound : disk.Sound F hhId) :
    Ends (· = disk) (initializeOrRecover F hhId config env)
      (fun _ after => OpenLeaves F hhId config disk after ∧ ∃ bytes, after.Lasts F hhId bytes)
      (fun _ => OpenLeaves F hhId config disk) := by
  have hsame : ∀ after : Disk, after = disk → OpenLeaves F hhId config disk after := by
    rintro _ rfl
    exact hsound.within.openLeaves
  have hvisible := disk.record.visible_mem_survivors
  refine .bind (Q := fun _ after => after = disk) ?_ fun _ => ?_
  · cases hacquire : env.acquire with
    | some reason => exact .adapt (.throw hsame)
    | none => exact .adapt (.pure fun _ h => h)
  refine .bind (.adapt ((readMarker_spec env.markerFault).weakenError
    fun _ => hsame)) fun marker => ?_
  rintro _ ⟨rfl, hmarker⟩
  suffices h : Ends (· = _) _ _ _ from h _ rfl
  refine .bind (.adapt ((readOptionalRecord_spec env.recordFault).weakenError fun _ => hsame))
    fun content => ?_
  rintro _ ⟨rfl, hcontent⟩
  suffices h : Ends (· = _) _ _ _ from h _ rfl
  split
  · split
    · rename_i hclean
      refine .ofExcept_bind (fun _ _ => .pure fun _ h => ?_) fun _ _ => hsame
      obtain ⟨bytes', hall⟩ := hsound.clean (hmarker hclean ▸ Volatile.visible_mem_survivors _)
      exact ⟨hsame _ h, bytes', h ▸ ⟨hsound, hall⟩⟩
    · refine .ofExcept_bind (fun _ _ => ?_) fun _ _ => hsame
      refine (restabilize_spec env.replace env.cleanMarker hsound hcontent).weaken
        (fun _ after h => ⟨?_, _, h⟩) fun _ _ h => h.openLeaves
      exact (h.within (hcontent ▸ hvisible)).openLeaves
  · exact initializeFreshUnderLock_spec hF hhhId hsound hcontent
  · split
    · exact initializeFreshUnderLock_spec hF hhhId hsound hcontent
    · exact .throw hsame

end

end Theyos.NonceLedger

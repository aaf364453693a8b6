import Theyos.Models.NonceLedger.World

/-!
# What the outcomes of the ledger say

A key that was committed is in every content that can be left until an attempt with a later floor;
a key is in a content only because an attempt on it was committed or may have taken effect; what
was consumed already is never read from a content that can be lost.
-/

namespace Theyos.NonceLedger

open Household Machine LedgerRecordV1

variable {F : Formats} {hhId : HouseholdId}

namespace Event

variable (key : MeshIntentNonceKey) (evidence : MeshIntentNonceEvidence)

/-- An attempt with this key and evidence was committed. -/
def Commits : Event hhId → Prop
  | .served request (.committed _) _ => request.1.key = key ∧ request.1.evidence = evidence
  | _ => False

/-- An attempt with this key and evidence was committed or may have taken effect. -/
def TakesEffect : Event hhId → Prop
  | .served request (.committed _) _ => request.1.key = key ∧ request.1.evidence = evidence
  | .served request (.mayHaveTakenEffect _) _ =>
    request.1.key = key ∧ request.1.evidence = evidence
  | _ => False

/-- An attempt had a floor above an expiry. -/
def Expires (notAfter : UInt64) : Event hhId → Prop
  | .served request _ _ => notAfter < request.1.trustedFloor.unixSeconds
  | _ => False

/-- A record was committed, by an attempt or by the opening of the ledger. -/
def Establishes : Event hhId → Prop
  | .opened (.ok ()) => True
  | .served _ (.committed _) _ => True
  | _ => False

/-- A caller was told that nothing was consumed. -/
def Unavailable : Event hhId → Prop
  | .refused _ _ => True
  | .served _ (.unavailable _) _ => True
  | _ => False

end Event

/-- An attempt with this key and evidence was committed, and none with a floor above its expiry
followed. -/
def Standing (key : MeshIntentNonceKey) (evidence : MeshIntentNonceEvidence)
    (log : List (Event hhId)) : Prop :=
  Since (Event.Commits key evidence) (fun event => ¬ event.Expires evidence.notAfter) log

/-- What an outcome says about the events before it. -/
def Event.Explained (before : List (Event hhId)) : Event hhId → Prop
  | .served request (.committed _) _ => ∀ evidence, Standing request.1.key evidence before →
      evidence.notAfter < request.1.trustedFloor.unixSeconds
  | .served request (.alreadyConsumed evidence) _ =>
      ∃ event ∈ before, event.TakesEffect request.1.key evidence
  | _ => True

variable (F) in
/-- Every content that can be left holds a key with its evidence. -/
def Disk.AllHold (key : MeshIntentNonceKey) (evidence : MeshIntentNonceEvidence) (disk : Disk) :
    Prop :=
  ∀ c ∈ disk.record.survivors, ∃ bytes, c = some bytes ∧ Holds F key evidence bytes

section

variable {disk after : Disk} {event : Event hhId} {key : MeshIntentNonceKey}
  {evidence : MeshIntentNonceEvidence}

theorem Disk.AllHold.holds (h : disk.AllHold F key evidence) {bytes : List UInt8}
    (hbytes : some bytes ∈ disk.record.survivors) : Holds F key evidence bytes := by
  obtain ⟨_, heq, hholds⟩ := h _ hbytes
  exact Option.some.inj heq ▸ hholds

theorem Disk.Lasts.allHold {content : List UInt8} (h : after.Lasts F hhId content)
    (hholds : Holds F key evidence content) : after.AllHold F key evidence :=
  fun c hc => ⟨content, h.record c hc, hholds⟩

theorem Disk.Within.allHold (h : disk.Within F hhId after) (hdisk : disk.AllHold F key evidence) :
    after.AllHold F key evidence :=
  fun c hc => hdisk c (h.record c hc)

namespace EventLeaves

section

variable (h : EventLeaves F disk event after)

include h

/-- The files are sound, and a record that was committed is there. What can be left of the record was
there before, is the first one of a ledger, or is what an attempt made of one that was there. -/
theorem leaves : after.Sound F hhId ∧ (event.Establishes → none ∉ after.record.survivors) ∧
    ∀ c ∈ after.record.survivors, c ∈ disk.record.survivors ∨
      (disk.record.visible = none ∧ ∃ bytes config, c = some bytes ∧
        F.readRecord bytes = some (.empty hhId config)) ∨
      ∃ request outcome delivered old new, event = .served request outcome delivered ∧
        event.TakesEffect request.1.key request.1.evidence ∧ some old ∈ disk.record.survivors ∧
        Extends F request.1 old new ∧ c = some new := by
  cases event with
  | opened result =>
    obtain ⟨⟨config, hopen⟩, hok⟩ := h
    refine ⟨hopen.sound, fun hestablishes hnone => ?_, fun c hc => ?_⟩
    · rcases result with e | _
      · exact hestablishes
      · obtain ⟨bytes, hlasts⟩ := hok rfl
        cases hlasts.record _ hnone
    · exact (hopen.record c hc).imp_right fun ⟨hnone, bytes, hempty⟩ =>
        .inl ⟨hnone, bytes, config, hempty⟩
  | refused request reason | abandoned request =>
    exact ⟨Disk.Within.sound h, False.elim, fun c hc => .inl (h.record c hc)⟩
  | served request outcome delivered =>
    cases outcome with
    | committed generation =>
      obtain ⟨old, new, hold, hextends, hlasts⟩ := h
      refine ⟨hlasts.sound, fun _ hnone => (nomatch hlasts.record _ hnone), fun c hc => ?_⟩
      exact .inr (.inr ⟨_, _, _, old, new, rfl, ⟨rfl, rfl⟩, hold, hextends, hlasts.record c hc⟩)
    | alreadyConsumed evidence =>
      obtain ⟨old, hold, hlasts, -⟩ := h
      exact ⟨hlasts.sound, False.elim, fun c hc => .inl (hlasts.record c hc ▸ hold)⟩
    | mayHaveTakenEffect stage =>
      obtain ⟨hsound, old, new, hold, hextends, hrecord⟩ := h
      refine ⟨hsound, False.elim, fun c hc => ?_⟩
      rcases hrecord c hc with rfl | rfl
      · exact .inr (.inr ⟨_, _, _, old, new, rfl, ⟨rfl, rfl⟩, hold, hextends, rfl⟩)
      · exact .inl hold
    | unavailable reason =>
      exact ⟨Disk.Within.sound h, False.elim, fun c hc => .inl (h.record c hc)⟩

/-- A key that every content holds stays, unless an attempt has a floor above its expiry. -/
theorem allHold (hevent : ¬ event.Expires evidence.notAfter)
    (hdisk : disk.AllHold F key evidence) : after.AllHold F key evidence := by
  intro c hc
  rcases h.leaves.2.2 c hc with
    hmem | ⟨hnone, -⟩ | ⟨request, _, _, old, new, rfl, -, hold, hextends, rfl⟩
  · exact hdisk c hmem
  · obtain ⟨_, hsome, -⟩ := hdisk _ disk.record.visible_mem_survivors
    cases hnone.symm.trans hsome
  · exact ⟨new, rfl, hextends.keeps (hdisk.holds hold) (UInt64.not_lt.mp hevent)⟩

/-- A commit leaves its key in every content. -/
theorem commits (hevent : event.Commits key evidence) : after.AllHold F key evidence := by
  rcases event with _ | _ | _ | ⟨request, _ | _ | _ | _, delivered⟩ <;> try exact hevent.elim
  obtain ⟨rfl, rfl⟩ := hevent
  obtain ⟨old, new, -, hextends, hlasts⟩ := h
  exact hlasts.allHold hextends.holds

/-- A key that a content holds was held before, or an attempt on it took effect. -/
theorem origin {bytes : List UInt8}
    (hbytes : some bytes ∈ after.record.survivors) (hkey : Holds F key evidence bytes) :
    event.TakesEffect key evidence ∨
      ∃ old, some old ∈ disk.record.survivors ∧ Holds F key evidence old := by
  rcases h.leaves.2.2 _ hbytes with
    hmem | ⟨-, _, _, ⟨⟩, hempty⟩ | ⟨request, _, _, old, _, rfl, heffect, hold, hextends, ⟨⟩⟩
  · exact .inr ⟨bytes, hmem, hkey⟩
  · obtain ⟨_, id, hread, -, hentry⟩ := hkey
    cases hempty.symm.trans hread
    simp [empty] at hentry
  · rcases hextends.origin hkey with ⟨rfl, rfl⟩ | hheld
    · exact .inl heffect
    · exact .inr ⟨old, hold, hheld⟩

/-- A record that is there in every case stays there, and so does one that is committed. -/
theorem none_notMem (hdisk : event.Establishes ∨ none ∉ disk.record.survivors) :
    none ∉ after.record.survivors := by
  intro hnone
  rcases hdisk with hestablishes | hdisk
  · exact h.leaves.2.1 hestablishes hnone
  · rcases h.leaves.2.2 _ hnone with hmem | ⟨-, _, _, ⟨⟩, -⟩ | ⟨_, _, _, _, _, -, -, -, -, ⟨⟩⟩
    exact hdisk hmem

end

/-- What was consumed already is in every content that can be left, and was before. -/
theorem alreadyConsumed {request : Accepted hhId} {delivered : Bool}
    (h : EventLeaves F disk (.served request (.alreadyConsumed evidence) delivered) after) :
    ∃ bytes, some bytes ∈ disk.record.survivors ∧ Holds F request.1.key evidence bytes ∧
      ∀ c ∈ after.record.survivors, c = some bytes := by
  obtain ⟨old, hold, hlasts, hholds⟩ := h
  exact ⟨old, hold, hholds, hlasts.record⟩

/-- A commit adds a key that the content it was made from did not hold. -/
theorem not_held {request : Accepted hhId} {generation : UInt64} {delivered : Bool}
    (h : EventLeaves F disk (.served request (.committed generation) delivered) after)
    (hdisk : disk.AllHold F request.1.key evidence) :
    evidence.notAfter < request.1.trustedFloor.unixSeconds := by
  obtain ⟨old, new, hold, ⟨record, id, _, hread, hid, hnone, -⟩, -⟩ := h
  obtain ⟨_, id', hread', hid', hentry⟩ := hdisk.holds hold
  cases hread.symm.trans hread'
  cases hid.symm.trans hid'
  refine UInt64.not_le.mp fun hfloor => ?_
  cases hnone.symm.trans (prune_getElem?.mpr ⟨hentry, hfloor⟩)

/-- An attempt that is unavailable adds nothing to what can be left. -/
theorem unavailable (h : EventLeaves F disk event after) (hevent : event.Unavailable) :
    ∀ c ∈ after.record.survivors, c ∈ disk.record.survivors := by
  rcases event with _ | _ | _ | ⟨request, _ | _ | _ | _, delivered⟩ <;>
    first
    | exact hevent.elim
    | exact h.record

end EventLeaves

end

namespace World

variable {world after : World hhId}

variable (F) in
/-- The files and what happened agree. -/
structure Accounted (world : World hhId) : Prop where
  sound : world.disk.Sound F hhId
  standing : ∀ {key evidence}, Standing key evidence world.log → world.disk.AllHold F key evidence
  origin : ∀ {bytes key evidence}, some bytes ∈ world.disk.record.survivors →
    Holds F key evidence bytes → ∃ event ∈ world.log, event.TakesEffect key evidence
  established : (∃ event ∈ world.log, event.Establishes) → none ∉ world.disk.record.survivors
  explained : Justified Event.Explained world.log

theorem start_accounted : (start hhId).Accounted F where
  sound := {
    wholesome := fun bytes hbytes => by cases List.mem_singleton.mp hbytes
    clean := fun hclean => absurd (List.mem_singleton.mp hclean) (by decide : markerClean ≠ []) }
  standing := by
    rintro key evidence ⟨before, event, later, hsplit, -⟩
    cases before <;> cases hsplit
  origin hbytes := by cases List.mem_singleton.mp hbytes
  established := by
    rintro ⟨event, hevent, -⟩
    cases hevent
  explained := .nil

/-- What an outcome says about the events before it is true of the files. -/
theorem Accounted.explains (h : world.Accounted F) {event : Event hhId}
    (hdisk : EventLeaves F world.disk event after.disk) : event.Explained world.log := by
  rcases event with _ | _ | _ | ⟨request, _ | _ | _ | _, delivered⟩ <;> try trivial
  · exact fun evidence hstanding => EventLeaves.not_held hdisk (h.standing hstanding)
  · obtain ⟨bytes, hbytes, hholds, -⟩ := EventLeaves.alreadyConsumed hdisk
    exact h.origin hbytes hholds

/-- Every step keeps the account. -/
theorem Traced.accounted (htraced : world.Traced F after) (h : world.Accounted F) :
    after.Accounted F := by
  cases htraced with
  | quiet hlog hdisk =>
    refine ⟨hdisk.sound, fun hstanding => hdisk.allHold (h.standing (hlog ▸ hstanding)),
      fun hbytes hholds => hlog ▸ h.origin (hdisk.record _ hbytes) hholds, ?_, hlog ▸ h.explained⟩
    exact fun hestablished hnone => h.established (hlog ▸ hestablished) (hdisk.record _ hnone)
  | logged event hlog hdisk =>
    refine ⟨hdisk.leaves.1, fun hstanding => ?_, fun hbytes hholds => ?_, ?_, ?_⟩
    · rw [hlog] at hstanding
      rcases Since.snoc_iff.mp hstanding with hcommits | ⟨hearlier, hexpires⟩
      · exact hdisk.commits hcommits
      · exact hdisk.allHold hexpires (h.standing hearlier)
    · rw [hlog]
      rcases hdisk.origin hbytes hholds with heffect | ⟨old, hold, hheld⟩
      · exact ⟨event, by simp, heffect⟩
      · obtain ⟨e, he, heffect⟩ := h.origin hold hheld
        exact ⟨e, by simp [he], heffect⟩
    · rw [hlog]
      rintro ⟨e, he, hestablishes⟩
      refine hdisk.none_notMem ?_
      rcases List.mem_append.mp he with he | he
      · exact .inr (h.established ⟨e, he, hestablishes⟩)
      · exact .inl (List.mem_singleton.mp he ▸ hestablishes)
    · rw [hlog]
      exact Justified.snoc_iff.mpr ⟨h.explained, h.explains hdisk⟩

/-- The account is right whatever happens. -/
theorem run_accounted (hF : F.Lawful) (ops : List Op) : (run F hhId ops).Accounted F := by
  induction ops using List.reverseRecOn with
  | nil => exact start_accounted
  | append_singleton ops op ih =>
    rw [run, List.foldl_append]
    exact (step_traced hF ih.sound op).accounted ih

/-- A step leaves what the event it records says. -/
theorem Traced.leaves (h : world.Traced F after) {event : Event hhId}
    (hlog : after.log = world.log ++ [event]) : EventLeaves F world.disk event after.disk := by
  cases h with
  | quiet hsame _ =>
    have hlength := congrArg List.length (hsame.symm.trans hlog)
    simp at hlength
  | logged event' hlog' hdisk =>
    obtain ⟨-, heq⟩ := List.append_inj' (hlog'.symm.trans hlog) rfl
    rw [List.singleton_inj] at heq
    exact heq ▸ hdisk

end World

section

/-- Whether the identifiers of a record are well formed. -/
def LedgerRecordV1.isReadable (record : LedgerRecordV1) : Bool :=
  isWellFormedId "hh_" record.hhId.asStr && record.entries.toList.all fun p =>
    isWellFormedId "hh_" p.2.key.hhId.asStr && isWellFormedId "m_" p.2.key.initiatorMId.asStr

theorem LedgerRecordV1.isReadable_iff {record : LedgerRecordV1} :
    record.isReadable ↔ record.Readable := by
  simp only [isReadable, Bool.and_eq_true, List.all_eq_true, Prod.forall,
    Std.ExtTreeMap.mem_toList_iff_getElem?_eq_some]
  exact ⟨fun h => ⟨h.1, fun he => h.2 _ _ he⟩, fun h => ⟨h.household, fun _ _ he => h.entries he⟩⟩

/-- Two records have the same fields, and the same entries in order. -/
def LedgerRecordV1.Same (record record' : LedgerRecordV1) : Prop :=
  record.version = record'.version ∧ record.domain = record'.domain ∧
    record.hhId = record'.hhId ∧ record.capacity = record'.capacity ∧
    record.generation = record'.generation ∧ record.entries.toList = record'.entries.toList

instance (record record' : LedgerRecordV1) : Decidable (record.Same record') :=
  inferInstanceAs (Decidable (_ ∧ _))

theorem LedgerRecordV1.Same.eq {record record' : LedgerRecordV1} (h : record.Same record') :
    record = record' := by
  cases record
  cases record'
  simpa only [Same, Std.ExtTreeMap.toList_inj, mk.injEq] using h

/-- Formats that number the records of a table, and file a key under its delegated key. -/
def tableFormats (table : List LedgerRecordV1) : Formats where
  entryId key := some key.delegatedKeyId
  writeRecord record := (table.findIdx? (·.Same record)).map fun i => List.replicate i 0
  readRecord bytes := table[bytes.length]?.filter LedgerRecordV1.isReadable

theorem tableFormats_lawful (table : List LedgerRecordV1) : (tableFormats table).Lawful where
  readRecord_write {record bytes} hreadable hwrite := by
    obtain ⟨i, hi, rfl⟩ := Option.map_eq_some_iff.mp hwrite
    obtain ⟨hlt, hfound, -⟩ := List.findIdx?_eq_some_iff_getElem.mp hi
    have hget : table[i]? = some record := by
      rw [List.getElem?_eq_getElem hlt, LedgerRecordV1.Same.eq (of_decide_eq_true hfound)]
    simp [tableFormats, hget, isReadable_iff.mpr hreadable]
  readable {record bytes} hread :=
    isReadable_iff.mp (Option.filter_eq_some_iff.mp hread).2

/-- A household. -/
def smallHousehold : HouseholdId := ⟨"hh_aaaaaaaaaaaaaaaaaaaaaaaaaaaaaaaaaaaaaaaaaaaaaaaaaaaa"⟩

/-- A key of its machine under a delegated key. -/
def smallKey (delegatedKeyId : String) (h : isDelegatedKeyId delegatedKeyId) :
    MeshIntentNonceKey where
  hhId := smallHousehold
  initiatorMId := ⟨"m_aaaaaaaaaaaaaaaaaaaaaaaaaaaaaaaaaaaaaaaaaaaaaaaaaaaa"⟩
  delegatedKeyId := delegatedKeyId
  nonce := zeroDigest
  hhId_wf := by decide
  initiatorMId_wf := by decide
  delegatedKeyId_valid := h

/-- Evidence with an expiry. -/
def smallEvidence (notAfter : UInt64) : MeshIntentNonceEvidence := ⟨.dev, zeroDigest, notAfter⟩

/-- An attempt with a floor. -/
def smallRequest (key : MeshIntentNonceKey) (notAfter floor : UInt64) : WorkerRequest :=
  ⟨key, smallEvidence notAfter, ⟨smallHousehold, floor⟩⟩

/-- A ledger of two entries. -/
def smallConfig : MeshIntentNonceLedgerConfig := ⟨2, 1, by decide, by decide, by decide⟩

/-- A record of the ledger. -/
def smallRecord (generation : UInt64) (entries : List (String × StoredEntryV1)) : LedgerRecordV1 :=
  { LedgerRecordV1.empty smallHousehold smallConfig with
    generation := generation
    entries := .ofList entries }

/-- Nothing fails. -/
def noFaults : ReplaceFaults := ⟨fun _ => false, false⟩

/-- Nothing fails while the ledger is opened. -/
def quietOpen : OpenCircumstances :=
  ⟨none, none, false, none, .written, noFaults, .written, false⟩

/-- Nothing fails on the way of a transaction. -/
def quiet : Circumstances :=
  ⟨none, false, none, noFaults, .written, none, .written, noFaults, .written, false⟩

/-- An attempt that is called and served in a process. -/
def attempted (process : ℕ) (request : WorkerRequest) (env : Circumstances) : List Op :=
  [.call process request none, .serve process env true]

/-- The outcomes that callers were told of. -/
def World.outcomes {hhId : HouseholdId} (world : World hhId) : List MeshIntentNonceConsumeOutcome :=
  world.log.filterMap fun
    | .served _ outcome true => some outcome
    | .abandoned _ => some (.mayHaveTakenEffect .workerInFlight)
    | .refused _ reason => some (.unavailable reason)
    | _ => none

/-- A key that is attempted with two evidences. -/
def replayedKey : MeshIntentNonceKey := smallKey "a" (by decide)

/-- The records of the attempts on the key. -/
def replayedTable : List LedgerRecordV1 :=
  [smallRecord 1 [], smallRecord 2 [("a", .of replayedKey (smallEvidence 150))],
    smallRecord 2 [("a", .of replayedKey (smallEvidence 160))]]

/-- The directory is not synced after the rename. -/
def unsynced : Circumstances :=
  { quiet with replace := ⟨fun stage => stage = .parentSync, false⟩ }

/-- An attempt may have taken effect and is lost, a second one is committed with other evidence,
and the first one is repeated. -/
def replayedOps : List Op :=
  [.openLedger 0 smallConfig quietOpen] ++
    attempted 0 (smallRequest replayedKey 150 100) unsynced ++
    [.lose ⟨1, 0, false⟩, .openLedger 0 smallConfig quietOpen] ++
    attempted 0 (smallRequest replayedKey 160 100) quiet ++
    attempted 0 (smallRequest replayedKey 150 100) quiet

end

namespace World

variable {world : World hhId}

variable (F) in
/-- The outcomes that were returned, and those of the next step, are true of what can be left. -/
structure Truthful (world : World hhId) : Prop where
  /-- A committed key is in every record that can be left until an attempt with a floor above its
  expiry. -/
  committed : ∀ key evidence, Standing key evidence world.log → world.disk.AllHold F key evidence
  /-- An attempt that is unavailable adds nothing to the records that can be left. -/
  unavailable : ∀ op event, (world.step F op).log = world.log ++ [event] → event.Unavailable →
    ∀ c ∈ (world.step F op).disk.record.survivors, c ∈ world.disk.record.survivors
  /-- A record holds a key only because an attempt on it was committed or may have taken effect. -/
  origin : ∀ bytes key evidence, some bytes ∈ world.disk.record.survivors →
    Holds F key evidence bytes → ∃ event ∈ world.log, event.TakesEffect key evidence
  /-- What was consumed already was consumed by an earlier attempt on the key that was committed or
  may have taken effect. -/
  alreadyConsumed : ∀ before request evidence delivered later,
    world.log = before ++ .served request (.alreadyConsumed evidence) delivered :: later →
    ∃ event ∈ before, event.TakesEffect request.1.key evidence
  /-- Where every attempt on the key carries one evidence, this is it. -/
  sameEvidence : ∀ before request evidence delivered later,
    world.log = before ++ .served request (.alreadyConsumed evidence) delivered :: later →
    ∀ evidence', (∀ earlier outcome told, .served earlier outcome told ∈ before →
      earlier.1.key = request.1.key → earlier.1.evidence = evidence') → evidence = evidence'
  /-- What was consumed already is read from the only record that can be left. -/
  lasting : ∀ op request evidence delivered,
    (world.step F op).log = world.log ++ [.served request (.alreadyConsumed evidence) delivered] →
    ∃ bytes, Holds F request.1.key evidence bytes ∧
      ∀ c ∈ (world.step F op).disk.record.survivors, c = some bytes
  /-- Once a record was committed there always is one, and opening the ledger adds none. -/
  opening : (∃ event ∈ world.log, event.Establishes) → none ∉ world.disk.record.survivors ∧
    ∀ process config env,
      ∀ c ∈ (world.step F (.openLedger process config env)).disk.record.survivors,
        c ∈ world.disk.record.survivors

/-- Where there is a record in every case, opening the ledger adds none. -/
theorem openLedger_within (hF : F.Lawful) (hsound : world.disk.Sound F hhId) (process : ℕ)
    (config : MeshIntentNonceLedgerConfig) (env : OpenCircumstances)
    (hthere : none ∉ world.disk.record.survivors) :
    ∀ c ∈ (world.openLedger F process config env).disk.record.survivors,
      c ∈ world.disk.record.survivors := by
  obtain ⟨result, -, ⟨config', hopen⟩, -⟩ := openLedger_opened hF hsound process config env
  intro c hc
  refine (hopen.record c hc).resolve_right ?_
  rintro ⟨hnone, -⟩
  exact hthere (hnone ▸ world.disk.record.visible_mem_survivors)

/-- In every run the outcomes of the ledger tell the truth. -/
theorem ledger_outcomes_truthful (hF : F.Lawful) (hhId : HouseholdId) (ops : List Op) :
    (run F hhId ops).Truthful F := by
  have h := @run_accounted F hhId hF ops
  have hexplained : ∀ before request evidence delivered later,
      (run F hhId ops).log =
        before ++ .served request (.alreadyConsumed evidence) delivered :: later →
      ∃ event ∈ before, event.TakesEffect request.1.key evidence :=
    fun before request evidence delivered later => h.explained before _ later
  have hleaves (op : Op) := step_traced hF h.sound op
  refine ⟨fun _ _ => h.standing, fun op event hlog => ((hleaves op).leaves hlog).unavailable,
    fun _ _ _ => h.origin, hexplained, ?_, ?_, fun hestablished => ?_⟩
  · intro before request evidence delivered later hlog evidence' hsame
    obtain ⟨event, hevent, heffect⟩ := hexplained before request evidence delivered later hlog
    rcases event with _ | _ | _ | ⟨earlier, _ | _ | _ | _, told⟩ <;>
      first
      | exact heffect.elim
      | exact heffect.2 ▸ hsame _ _ _ hevent heffect.1
  · intro op request evidence delivered hlog
    obtain ⟨bytes, -, hholds, hall⟩ := ((hleaves op).leaves hlog).alreadyConsumed
    exact ⟨bytes, hholds, hall⟩
  · have hthere := h.established hestablished
    exact ⟨hthere, fun process config env =>
      openLedger_within hF h.sound process config env hthere⟩

theorem ledger_outcomes_truthful_small :
    (tableFormats replayedTable).Lawful ∧
      (run (tableFormats replayedTable) smallHousehold replayedOps).Truthful
        (tableFormats replayedTable) :=
  ⟨tableFormats_lawful _, ledger_outcomes_truthful (tableFormats_lawful _) _ _⟩

/-- After an attempt that may have taken effect, the same attempt can find other evidence. -/
theorem alreadyConsumed_other_evidence :
    (run (tableFormats replayedTable) smallHousehold replayedOps).outcomes =
        [.mayHaveTakenEffect .parentSync, .committed 2, .alreadyConsumed (smallEvidence 160)] ∧
      (smallRequest replayedKey 150 100).evidence ≠ smallEvidence 160 := by
  decide +kernel

end World

end Theyos.NonceLedger

import Theyos.Core.Store.Versioned
import Theyos.Models.MeshControl.Run.Submission
import Theyos.Models.MeshControl.Store.File

/-!
# Processes sharing one record file

Any number of processes load the record and replace it by what a transition made of some record
they loaded, at a revision of their choice. Replacements compare revisions, not contents, and what
a process writes may be derived from a reading made long ago.
-/

namespace Theyos.MeshControl

open Machine Versioned

/-- One call of a process on the shared store. -/
inductive StoreCall (ι : Type) where
  /-- Load the record. -/
  | load (process : ι) (readable : Bool)
  /-- Store the pristine record. -/
  | create (process : ι) (expectedRevision : UInt64) (answers : ReplaceAnswers)
  /-- Replace the record by what a submission makes of a record loaded earlier. -/
  | replace (process : ι) (loaded : MeshSignerControlRecordV1) (submission : Submission)
      (expectedRevision : UInt64) (answers : ReplaceAnswers)

/-- The file, and the records each process has loaded. -/
structure Processes (ι : Type) where
  disk : Disk
  loaded : ι → List MeshSignerControlRecordV1

/-- Why a call did not reach the store. -/
inductive StoreCallError where
  | notLoaded
  | transition (error : TransitionError)

/-- Before any call: no file, and nothing loaded. -/
def Processes.init (ι : Type) : Processes ι := ⟨none, fun _ => []⟩

/-- One call; the body of a replacement is atomic under the process lock. -/
def Processes.call {ι : Type} [DecidableEq ι] (st : FileBackedStore) (w : Processes ι) :
    StoreCall ι → Except StoreCallError (Processes ι)
  | .load process readable =>
    match st.loadCanonical w.disk readable with
    | .exact r => .ok { w with loaded := Function.update w.loaded process (r :: w.loaded process) }
    | .missing | .corrupt => .ok w
  | .create _ expectedRevision answers =>
    .ok { w with disk := (st.replaceExact w.disk answers expectedRevision st.bootstrap).2 }
  | .replace process r s expectedRevision answers =>
    if r ∈ w.loaded process then
      match submit st.hashes r s with
      | .ok new => .ok { w with disk := (st.replaceExact w.disk answers expectedRevision new).2 }
      | .error e => .error (.transition e)
    else .error .notLoaded

/-- The file's contents along a run of calls. -/
def diskTrace {ι : Type} [DecidableEq ι] (st : FileBackedStore) :
    Processes ι → List (StoreCall ι) → List Disk
  | w, [] => [w.disk]
  | w, c :: calls => w.disk :: diskTrace st (advance (Processes.call st) w c) calls

/-- The submissions a run makes. -/
def Submitted {ι : Type} (calls : List (StoreCall ι)) (s : Submission) : Prop :=
  ∃ process r expectedRevision answers, .replace process r s expectedRevision answers ∈ calls

/-- One content after another: the same bytes, the pristine record in a file that did not exist,
or the record under one submission with the next revision. -/
inductive Succeeds (st : FileBackedStore) (Q : Submission → Prop) : Disk → Disk → Prop
  | same (disk : Disk) : Succeeds st Q disk disk
  | created {disk : Disk} (h : st.Holds disk st.bootstrap) : Succeeds st Q none disk
  | applied {disk disk' : Disk} {r r' : MeshSignerControlRecordV1} {s : Submission}
      (hr : st.Holds disk r) (hr' : st.Holds disk' r') (hQ : Q s)
      (happly : submit st.hashes r s = .ok r')
      (hrevision : r'.revision.toNat = r.revision.toNat + 1) : Succeeds st Q disk disk'

/-- The lineages of the control record. -/
def RecordLineage (st : FileBackedStore) (Q : Submission → Prop) :
    List MeshSignerControlRecordV1 → Prop :=
  Lineage (fun r => r.revision.toNat) (fun r r' => ∃ s, Q s ∧ submit st.hashes r s = .ok r')
    st.bootstrap

/-- The file holds the newest record of a lineage, or does not exist before the first. -/
def HoldsHead (st : FileBackedStore) (disk : Disk) : List MeshSignerControlRecordV1 → Prop
  | [] => disk = none
  | r :: _ => st.Holds disk r

/-- The file holds the newest record of a lineage, and all that was loaded is part of it. -/
structure Consistent {ι : Type} (st : FileBackedStore) (Q : Submission → Prop) (w : Processes ι)
    (chain : List MeshSignerControlRecordV1) : Prop where
  lineage : RecordLineage st Q chain
  head : HoldsHead st w.disk chain
  loaded : ∀ process, ∀ r ∈ w.loaded process, r ∈ chain

variable {st : FileBackedStore} {Q : Submission → Prop}
  {disk : Disk} {chain : List MeshSignerControlRecordV1}

/-- A successful submission changed nothing or raised the revision by one. -/
theorem submit_revision {H : Hashes} {old new : MeshSignerControlRecordV1} {s : Submission}
    (h : submit H old s = .ok new) :
    new = old ∨ new.revision.toNat = old.revision.toNat + 1 := by
  rcases submit_cases h with rfl | ⟨heffect, _⟩
  · exact .inl rfl
  · exact heffect.revision

theorem head_of_exact (hD : st.Derived) (hhead : HoldsHead st disk chain)
    {readable : Bool} {cur : MeshSignerControlRecordV1}
    (hload : st.loadCanonical disk readable = .exact cur) : ∃ rest, chain = cur :: rest := by
  cases chain with
  | nil =>
    cases hhead
    cases readable <;> cases hload
  | cons r rest => exact ⟨rest, by rw [hhead.eq_of_load hD hload]⟩

theorem nil_of_missing (hhead : HoldsHead st disk chain) {readable : Bool}
    (hload : st.loadCanonical disk readable = .missing) : chain = [] ∧ disk = none := by
  cases chain with
  | nil => exact ⟨rfl, hhead⟩
  | cons r rest =>
    obtain ⟨bytes, _, rfl⟩ := hhead
    cases readable with
    | false => cases hload
    | true =>
      rw [FileBackedStore.loadCanonical] at hload
      split at hload
      · split_ifs at hload
      · cases hload

/-- Replacing the content by the pristine record, or by what a submission made of some record of
the lineage, extends the lineage by at most that record. -/
theorem RecordLineage.replace (hD : st.Derived) (hlineage : RecordLineage st Q chain)
    (hhead : HoldsHead st disk chain) {new : MeshSignerControlRecordV1}
    (hnew : new = st.bootstrap ∨ ∃ base ∈ chain, ∃ s, Q s ∧ submit st.hashes base s = .ok new)
    (answers : ReplaceAnswers) (expectedRevision : UInt64) :
    ∃ chain', chain <:+ chain' ∧ RecordLineage st Q chain' ∧
      HoldsHead st (st.replaceExact disk answers expectedRevision new).2 chain' ∧
      Succeeds st Q disk (st.replaceExact disk answers expectedRevision new).2 := by
  rcases st.replaceExact_cases disk answers expectedRevision new with
    ⟨hsame, _⟩ | ⟨bytes, hbytes, hadmits, hplaced, _⟩
  · rw [hsame]
    exact ⟨chain, List.suffix_refl _, hlineage, hhead, .same disk⟩
  have hholds : st.Holds (st.replaceExact disk answers expectedRevision new).2 new :=
    ⟨bytes, hbytes, hplaced⟩
  cases hload : st.loadCanonical disk answers.readable with
  | corrupt => simp [hload, FileBackedStore.admitsWrite] at hadmits
  | missing =>
    simp only [hload, FileBackedStore.admitsWrite, decide_eq_true_eq] at hadmits
    obtain ⟨rfl, rfl⟩ := nil_of_missing hhead hload
    obtain ⟨_, rfl⟩ := hadmits
    exact ⟨[st.bootstrap], List.nil_suffix, .first, hholds, .created hholds⟩
  | exact cur =>
    simp only [hload, FileBackedStore.admitsWrite, decide_eq_true_eq] at hadmits
    obtain ⟨rest, rfl⟩ := head_of_exact hD hhead hload
    obtain ⟨_, hwrite⟩ := hadmits
    split_ifs at hwrite with hrevision
    · subst hwrite
      obtain ⟨bytes', hbytes', rfl⟩ := hhead
      cases hbytes.symm.trans hbytes'
      rw [hplaced]
      exact ⟨_, List.suffix_refl _, hlineage, ⟨bytes, hbytes, rfl⟩, .same _⟩
    · have hnext : new.revision.toNat = cur.revision.toNat + 1 :=
        checkedAdd_one_eq_some.mp hwrite.symm
      rcases hnew with rfl | ⟨base, hbase, s, hQ, hs⟩
      · simp [FileBackedStore.bootstrap, MeshSignerControlRecordV1.bootstrap, initialRevision]
          at hnext
      have hderived : new = base ∨ (∃ s, Q s ∧ submit st.hashes base s = .ok new) ∧
          new.revision.toNat = base.revision.toNat + 1 :=
        (submit_revision hs).imp_right fun hrev => ⟨⟨s, hQ, hs⟩, hrev⟩
      obtain ⟨s', hQ', hs'⟩ := Lineage.derived hlineage hbase hderived hnext
      exact ⟨new :: cur :: rest, List.suffix_cons _ _, Lineage.grow hlineage ⟨s', hQ', hs'⟩ hnext,
        hholds, .applied hhead hholds hQ' hs' hnext⟩

theorem Submitted.mono {ι : Type} {calls calls' : List (StoreCall ι)} {s : Submission}
    (hs : Submitted calls s) (h : calls ⊆ calls') : Submitted calls' s := by
  obtain ⟨process, r, expectedRevision, answers, hmem⟩ := hs
  exact ⟨process, r, expectedRevision, answers, h hmem⟩

section

variable {ι : Type} [DecidableEq ι] {w w' : Processes ι}

/-- Every call extends the lineage by at most one record. -/
theorem Consistent.call (hD : st.Derived) (hw : Consistent st Q w chain) {c : StoreCall ι}
    (hQ : ∀ s, Submitted [c] s → Q s) (h : Processes.call st w c = .ok w') :
    ∃ chain', chain <:+ chain' ∧ Consistent st Q w' chain' ∧ Succeeds st Q w.disk w'.disk := by
  cases c with
  | load process readable =>
    simp only [Processes.call] at h
    cases hload : st.loadCanonical w.disk readable with
    | exact r =>
      obtain ⟨rest, rfl⟩ := head_of_exact hD hw.head hload
      rw [hload] at h
      cases h
      refine ⟨_, List.suffix_refl _, ⟨hw.lineage, hw.head, fun process' r' hr' => ?_⟩, .same _⟩
      by_cases heq : process' = process
      · subst heq
        simp only [Function.update_self] at hr'
        rcases List.mem_cons.mp hr' with rfl | hr'
        · exact List.mem_cons_self
        · exact hw.loaded process' r' hr'
      · simp only [Function.update_of_ne heq] at hr'
        exact hw.loaded process' r' hr'
    | missing | corrupt =>
      rw [hload] at h
      cases h
      exact ⟨chain, List.suffix_refl _, hw, .same _⟩
  | create process expectedRevision answers =>
    cases h
    obtain ⟨chain', hsuffix, hlineage, hhead, hsucc⟩ :=
      hw.lineage.replace hD hw.head (.inl rfl) answers expectedRevision
    exact ⟨chain', hsuffix, ⟨hlineage, hhead, fun p r hr => hsuffix.mem (hw.loaded p r hr)⟩, hsucc⟩
  | replace process r s expectedRevision answers =>
    simp only [Processes.call] at h
    split_ifs at h with hr
    cases hs : submit st.hashes r s with
    | error e =>
      rw [hs] at h
      cases h
    | ok new =>
      rw [hs] at h
      cases h
      have hs : Q s ∧ submit st.hashes r s = .ok new :=
        ⟨hQ s ⟨process, r, expectedRevision, answers, List.mem_singleton_self _⟩, hs⟩
      obtain ⟨chain', hsuffix, hlineage, hhead, hsucc⟩ := hw.lineage.replace hD hw.head
        (.inr ⟨r, hw.loaded process r hr, s, hs⟩) answers expectedRevision
      exact ⟨chain', hsuffix, ⟨hlineage, hhead, fun p r hr => hsuffix.mem (hw.loaded p r hr)⟩,
        hsucc⟩

theorem diskTrace_head (st : FileBackedStore) (w : Processes ι)
    (calls : List (StoreCall ι)) : ∃ rest, diskTrace st w calls = w.disk :: rest := by
  cases calls with
  | nil => exact ⟨[], rfl⟩
  | cons c calls => exact ⟨_, rfl⟩

omit [DecidableEq ι] in
theorem Consistent.disk_held (hw : Consistent st Q w chain)
    {final : List MeshSignerControlRecordV1} (hsuffix : chain <:+ final) :
    w.disk = none ∨ ∃ r ∈ final, st.Holds w.disk r := by
  cases chain with
  | nil => exact .inl hw.head
  | cons r rest => exact .inr ⟨r, hsuffix.mem List.mem_cons_self, hw.head⟩

/-- Along every run of calls the contents succeed one another within one lineage. -/
theorem Consistent.trace (hD : st.Derived) (hw : Consistent st Q w chain)
    {calls : List (StoreCall ι)} (hQ : ∀ s, Submitted calls s → Q s) :
    ∃ final, chain <:+ final ∧ RecordLineage st Q final ∧
      (diskTrace st w calls).IsChain (Succeeds st Q) ∧
      ∀ disk ∈ diskTrace st w calls, disk = none ∨ ∃ r ∈ final, st.Holds disk r := by
  induction calls generalizing w chain with
  | nil =>
    refine ⟨chain, List.suffix_refl _, hw.lineage, .singleton _, fun disk hdisk => ?_⟩
    rw [List.mem_singleton.mp hdisk]
    exact hw.disk_held (List.suffix_refl _)
  | cons c calls ih =>
    have hnext : ∃ chain', chain <:+ chain' ∧
        Consistent st Q (advance (Processes.call st) w c) chain' ∧
        Succeeds st Q w.disk (advance (Processes.call st) w c).disk := by
      rcases advance_cases (Processes.call st) w c with hok | hsame
      · exact hw.call hD (fun s hs => hQ s (hs.mono (by simp))) hok
      · rw [hsame]
        exact ⟨chain, List.suffix_refl _, hw, .same _⟩
    obtain ⟨chain', hchain, hw', hsucc⟩ := hnext
    obtain ⟨final, hfinal, hlineage, hsucceeds, hheld⟩ :=
      ih hw' fun s hs => hQ s (hs.mono (List.subset_cons_self c calls))
    refine ⟨final, hchain.trans hfinal, hlineage, ?_, fun disk hdisk => ?_⟩
    · obtain ⟨rest, hrest⟩ := diskTrace_head st (advance (Processes.call st) w c) calls
      rw [hrest] at hsucceeds
      rw [diskTrace, hrest]
      exact .cons_cons hsucc hsucceeds
    · rcases List.mem_cons.mp hdisk with rfl | hdisk
      · exact hw.disk_held (hchain.trans hfinal)
      · exact hheld disk hdisk

/-- No update is lost: whatever the processes and the interleaving of their calls, the contents of
the file succeed one another from the pristine record, no revision is stored with two records, and
a replacement reported without effect leaves the content as it was. -/
theorem no_update_lost (hD : st.Derived) (calls : List (StoreCall ι)) :
    (diskTrace st (.init ι) calls).IsChain (Succeeds st (Submitted calls)) ∧
      (∀ disk ∈ diskTrace st (.init ι) calls, disk = none ∨ ∃ r, st.Holds disk r) ∧
      (∀ disk ∈ diskTrace st (.init ι) calls, ∀ disk' ∈ diskTrace st (.init ι) calls,
        ∀ r r', st.Holds disk r → st.Holds disk' r' → r.revision = r'.revision → r = r') ∧
      ∀ disk answers expectedRevision new,
        (st.replaceExact disk answers expectedRevision new).1 = .knownNoEffect →
          (st.replaceExact disk answers expectedRevision new).2 = disk := by
  have hinit : Consistent st (Submitted calls) (.init ι) [] :=
    ⟨.empty, rfl, fun _ _ hr => nomatch hr⟩
  obtain ⟨final, _, hlineage, hsucceeds, hheld⟩ := hinit.trace hD fun _ hs => hs
  have hmem : ∀ disk ∈ diskTrace st (.init ι) calls, ∀ r, st.Holds disk r → r ∈ final := by
    intro disk hdisk r hr
    rcases hheld disk hdisk with rfl | ⟨r', hr', hholds⟩
    · obtain ⟨_, _, hnone⟩ := hr
      cases hnone
    · rwa [hr.unique hD hholds]
  refine ⟨hsucceeds, fun disk hdisk => ?_, ?_, fun disk answers revision new h => ?_⟩
  · exact (hheld disk hdisk).imp_right fun ⟨r, _, hr⟩ => ⟨r, hr⟩
  · intro disk hdisk disk' hdisk' r r' hr hr' hrevision
    exact Lineage.eq_of_version_eq hlineage (hmem disk hdisk r hr) (hmem disk' hdisk' r' hr')
      (congrArg UInt64.toNat hrevision)
  · rcases st.replaceExact_cases disk answers revision new with ⟨hdisk, _⟩ | ⟨_, _, _, _, hne⟩
    · exact hdisk
    · exact absurd h hne

end

/-- Two processes load the pristine record, and both replace it at its revision. -/
def contendedCalls : List (StoreCall Bool) :=
  [.create false 0 .clean, .load false true, .load true true,
    .replace false smallStore.bootstrap
      (RecordTransition.intentRecorded (repeatedTxn 1) .create .file).submission 0 .clean,
    .replace true smallStore.bootstrap
      (RecordTransition.intentRecorded (repeatedTxn 2) .create .file).submission 0 .clean]

theorem no_update_lost_contendedCalls :
    (diskTrace smallStore (.init Bool) contendedCalls).map (Option.map List.length) =
        [none, some 218, some 218, some 218, some 472, some 472] ∧
      (diskTrace smallStore (.init Bool) contendedCalls).IsChain
        (Succeeds smallStore (Submitted contendedCalls)) :=
  ⟨by decide +kernel, (no_update_lost smallStore_derived contendedCalls).1⟩

end Theyos.MeshControl

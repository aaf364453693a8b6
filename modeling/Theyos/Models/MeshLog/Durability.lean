import Theyos.Core.Machine.Conduct
import Theyos.Core.Store.Torn
import Theyos.Core.Text.Decimal

/-!
# The file behind the mesh log

Opening a log keeps the lines that decode and verify, the first of each `entry_id`. An append
does not look at how the file ends: what a failed write left becomes the start of its line.
-/

namespace Theyos.MeshLog

open Machine

/-- Why a log refuses an entry: its check or its encoding failed, or the disk did. -/
inductive MeshLogError where
  | invalid (reason : String)
  | io

/-- How entries are identified and verified, and written as the base64 text of their canonical
encoding, which has no white space and reads back as the entry. -/
structure LogFormat (ε ι : Type) where
  entryId : ε → ι
  verify : ε → Except MeshLogError Unit
  toLine : ε → Except MeshLogError (List Char)
  parse : List Char → Option ε
  parse_toLine : ∀ e line, toLine e = .ok line → parse line = some e
  toLine_plain : ∀ e line, toLine e = .ok line →
    line ≠ [] ∧ ∀ c ∈ line, Text.whiteSpace c = false

/-- How writing a line ends: it is synced, or fails when some characters were written. -/
inductive Write where
  | synced
  | failed (written : ℕ)

/-- The file, the logs that are open, and the entries whose append returned `Ok(true)`. -/
structure State (ε : Type) where
  file : TornFile Char
  stores : List (List ε) := []
  acknowledged : List ε := []

/-- What happens to the file. -/
inductive Action (ε : Type) where
  | open
  | append (store : ℕ) (entry : ε) (write : Write)
  | lose (left : ℕ)

variable {ε ι : Type} [DecidableEq ι] (F : LogFormat ε ι)

variable (entries : List ε)

/-- The ids of an open log. -/
def seen : List ι := entries.map F.entryId

/-- Read one line of the file. -/
def openLine (line : List Char) : List ε :=
  let trimmed := Text.trim line
  if trimmed = [] then entries else
    match F.parse trimmed with
    | none => entries
    | some entry =>
      match F.verify entry with
      | .error _ => entries
      | .ok () => if F.entryId entry ∈ seen F entries then entries else entries ++ [entry]

/-- The entries of a log that is opened from a file. -/
def openText (text : List Char) : List ε := (text.splitOn '\n').foldl (openLine F) []

/-- Append a line and a newline, and sync. -/
def appendLineDurable (file : TornFile Char) (line : List Char) :
    Write → Except MeshLogError Unit × TornFile Char
  | .synced => (.ok (), (file.append (line ++ ['\n'])).sync)
  | .failed written => (.error .io, file.append ((line ++ ['\n']).take written))

/-- Append an entry: what the call returns, the log and the file after it. -/
def append (file : TornFile Char) (entry : ε) (write : Write) :
    Except MeshLogError Bool × List ε × TornFile Char :=
  match F.verify entry with
  | .error e => (.error e, entries, file)
  | .ok () =>
    if F.entryId entry ∈ seen F entries then (.ok false, entries, file) else
      match F.toLine entry with
      | .error e => (.error e, entries, file)
      | .ok line =>
        match appendLineDurable file line write with
        | (.error e, file) => (.error e, entries, file)
        | (.ok (), file) => (.ok true, entries ++ [entry], file)

/-- One action; an append needs an open log. -/
def State.next (s : State ε) : Action ε → Option (State ε)
  | .open => some { s with stores := s.stores ++ [openText F s.file.visible] }
  | .lose left => some { s with file := s.file.lose left, stores := [] }
  | .append store entry write => (s.stores[store]?).map fun entries =>
    let (result, entries, file) := append F entries s.file entry write
    { file, stores := s.stores.set store entries
      acknowledged := match result with
        | .ok true => s.acknowledged ++ [entry]
        | _ => s.acknowledged }

/-- The text is empty or ends with a newline. -/
def ended (text : List Char) : Bool := text.getLast?.all (· == '\n')

/-- An append to a log reaches the file: the entry verifies, is new and has a line. -/
def writes (entry : ε) : Write → Bool
  | .failed 0 => false
  | _ => F.verify entry matches .ok () && F.entryId entry ∉ seen F entries &&
    F.toLine entry matches .ok _

/-- An append that reaches the file finds its last line ended. -/
def State.tidy (s : State ε) : Action ε → Bool
  | .append store entry write => ended s.file.visible ||
    !(s.stores[store]?).any (writes F · entry write)
  | _ => true

/-- A line stands by itself in a text. -/
def Holds (line text : List Char) : Prop :=
  ∃ before after, ended before = true ∧ text = before ++ line ++ '\n' :: after

variable {F} {line text : List Char} {entries} {e : ε}

theorem Holds.append (h : Holds line text) (more : List Char) : Holds line (text ++ more) := by
  obtain ⟨before, after, hbefore, rfl⟩ := h
  exact ⟨before, after ++ more, hbefore, by simp⟩

theorem Holds.mem_splitOn (h : Holds line text) (hline : '\n' ∉ line) :
    line ∈ text.splitOn '\n' := by
  obtain ⟨before, after, hbefore, rfl⟩ := h
  have hrest : line ∈ (line ++ '\n' :: after).splitOn '\n' := by
    rw [List.splitOn, List.splitOnP_append_cons_of_forall_mem (by grind) _ (by simp)]
    exact List.mem_cons_self
  rcases List.eq_nil_or_concat' before with rfl | ⟨before, c, rfl⟩
  · exact hrest
  · obtain rfl : c = '\n' := by simpa [ended] using hbefore
    rw [List.splitOn, List.append_assoc, List.append_assoc, List.singleton_append,
      List.splitOnP_append_cons _ _ (by simp)]
    exact List.mem_append_right _ hrest

/-- A line adds nothing, or an entry that verifies and whose id is new. -/
theorem openLine_cases (entries : List ε) (line : List Char) :
    openLine F entries line = entries ∨ ∃ e, F.verify e = .ok () ∧
      F.entryId e ∉ seen F entries ∧ openLine F entries line = entries ++ [e] := by
  unfold openLine
  grind

theorem seen_openLine {id : ι} (h : id ∈ seen F entries) : id ∈ seen F (openLine F entries line) := by
  rcases openLine_cases (F := F) entries line with heq | ⟨e, -, -, heq⟩ <;> rw [heq]
  · exact h
  · rw [seen, List.map_append]
    exact List.mem_append_left _ h

theorem seen_openLine_self (hline : F.toLine e = .ok line) (hverify : F.verify e = .ok ()) :
    F.entryId e ∈ seen F (openLine F entries line) := by
  obtain ⟨hne, hplain⟩ := F.toLine_plain e line hline
  have htrim : Text.trim line = line := by
    apply Text.trim_eq_self
    · exact fun c hc => hplain c (List.mem_of_mem_head? hc)
    · exact fun c hc => hplain c (List.mem_of_mem_getLast? hc)
  simp only [openLine, htrim, if_neg hne, F.parse_toLine e line hline, hverify]
  split
  · assumption
  · simp [seen]

/-- The id of an entry whose line stands in a file is in the log that is opened from it. -/
theorem seen_openText (h : Holds line text) (hline : F.toLine e = .ok line)
    (hverify : F.verify e = .ok ()) : F.entryId e ∈ seen F (openText F text) := by
  have hbreak : '\n' ∉ line := by
    intro hmem
    exact absurd ((F.toLine_plain e line hline).2 _ hmem) (by decide)
  obtain ⟨before, after, heq⟩ := List.append_of_mem (h.mem_splitOn hbreak)
  rw [openText, heq, List.foldl_append]
  exact List.foldlRecOn (motive := (F.entryId e ∈ seen F ·)) after _
    (seen_openLine_self hline hverify) fun _ hseen _ _ => seen_openLine hseen

/-- Opening a file yields entries that verify, and no id twice. -/
theorem openText_sound (text : List Char) :
    (∀ e ∈ openText F text, F.verify e = .ok ()) ∧ (seen F (openText F text)).Nodup := by
  refine List.foldlRecOn (motive := fun es => (∀ e ∈ es, F.verify e = .ok ()) ∧ (seen F es).Nodup)
    _ _ ⟨by simp, List.nodup_nil⟩ ?_
  rintro entries ⟨hverify, hnodup⟩ line -
  rcases openLine_cases (F := F) entries line with heq | ⟨e, he, hnew, heq⟩ <;> rw [heq]
  · exact ⟨hverify, hnodup⟩
  · constructor
    · simpa [or_imp, forall_and] using ⟨hverify, he⟩
    · rw [seen, List.map_append]
      exact hnodup.append (List.nodup_singleton _) (List.disjoint_singleton.mpr hnew)

/-- What the acknowledged entries need: each verifies, and its line stands in whatever a loss of
power may leave. -/
def Kept (F : LogFormat ε ι) (s : State ε) : Prop :=
  ∀ e ∈ s.acknowledged, F.verify e = .ok () ∧ ∃ line, F.toLine e = .ok line ∧
    ∀ left ∈ s.file.survivors, Holds line left

theorem Holds.survivors_append {file : TornFile Char} (h : ∀ left ∈ file.survivors, Holds line left)
    (bytes : List Char) : ∀ left ∈ (file.append bytes).survivors, Holds line left := by
  intro left hleft
  rcases TornFile.mem_survivors_append hleft with hleft | ⟨k, rfl⟩
  · exact h left hleft
  · exact (h _ file.visible_mem_survivors).append _

theorem next_append_cases {s t : State ε} {store : ℕ} {entry : ε} {write : Write}
    (h : s.next F (.append store entry write) = some t) :
    (t.acknowledged = s.acknowledged ∧ ∃ bytes, t.file = s.file.append bytes) ∨
      t.acknowledged = s.acknowledged ++ [entry] ∧ F.verify entry = .ok () ∧ ∃ line,
        F.toLine entry = .ok line ∧ t.file = (s.file.append (line ++ ['\n'])).sync ∧
          (s.stores[store]?).any (writes F · entry write) = true := by
  have hnone : s.file = s.file.append [] := by simp [TornFile.append]
  obtain ⟨entries, hentries, rfl⟩ := Option.map_eq_some_iff.mp h
  cases hverify : F.verify entry with
  | error => simpa [append, hverify] using ⟨[], hnone⟩
  | ok =>
    by_cases hseen : F.entryId entry ∈ seen F entries
    · simpa [append, hverify, hseen] using ⟨[], hnone⟩
    · cases hline : F.toLine entry with
      | error => simpa [append, hverify, hseen, hline] using ⟨[], hnone⟩
      | ok line =>
        cases write <;> simp [append, hverify, hseen, hline, appendLineDurable, hentries, writes]

theorem Kept.next {s t : State ε} {action : Action ε} (h : Kept F s)
    (htidy : s.tidy F action = true) (hnext : s.next F action = some t) : Kept F t := by
  cases action with
  | «open» =>
    cases hnext
    exact h
  | lose left =>
    cases hnext
    intro e he
    obtain ⟨hverify, line, hline, hholds⟩ := h e he
    exact ⟨hverify, line, hline, fun left hleft => hholds left (TornFile.mem_survivors_lose hleft)⟩
  | append store entry write =>
    intro e he
    rcases next_append_cases hnext with
      ⟨hack, bytes, hfile⟩ | ⟨hack, hverify, line, hline, hfile, hwrites⟩
    · obtain ⟨hverify, line, hline, hholds⟩ := h e (hack ▸ he)
      exact ⟨hverify, line, hline, hfile ▸ Holds.survivors_append hholds bytes⟩
    · rw [hack, List.mem_append, List.mem_singleton] at he
      rw [hfile]
      rcases he with he | rfl
      · obtain ⟨hverify, line, hline, hholds⟩ := h e he
        refine ⟨hverify, line, hline, fun left hleft => ?_⟩
        rw [TornFile.mem_survivors_sync.mp hleft, TornFile.visible_append]
        exact (hholds _ s.file.visible_mem_survivors).append _
      · refine ⟨hverify, line, hline, fun left hleft => ?_⟩
        rw [TornFile.mem_survivors_sync.mp hleft, TornFile.visible_append]
        refine ⟨s.file.visible, [], ?_, (List.append_assoc _ _ _).symm⟩
        rw [State.tidy, hwrites] at htidy
        simpa using htidy

/-- A log whose entries are two letters. -/
def letterFormat : LogFormat Bool Bool where
  entryId := id
  verify _ := .ok ()
  toLine e := .ok [if e then 'A' else 'B']
  parse line := if line = ['A'] then some true else if line = ['B'] then some false else none
  parse_toLine e line h := by
    cases h
    cases e <;> decide
  toLine_plain e line h := by
    cases h
    refine ⟨List.cons_ne_nil _ _, List.forall_mem_singleton.mpr ?_⟩
    cases e <;> decide

/-- An append that is synced, one that fails, and a loss of power. -/
def letterRun : List (Action Bool) :=
  [.open, .append 0 true .synced, .append 0 false (.failed 1), .lose 1, .open]

/-- An entry that was acknowledged after a failed write is glued to what that write left, and is
in no log that is opened later. -/
theorem acknowledged_entry_lost : ∃ s : State Bool,
    [.open, .append 0 true (.failed 1), .append 0 false .synced, .open].foldlM
      (State.next letterFormat) { file := .settled [] } = some s ∧
    s.acknowledged = [false] ∧ s.stores[1]? = some [] := by
  exact ⟨_, rfl, rfl, by decide +kernel⟩

/-- When every append that writes finds the last line of the file ended, each acknowledged entry is
in every log that is opened later; and whatever the file holds, an opened log has only entries
that verify, each once. -/
theorem acknowledged_entries_present (F : LogFormat ε ι) {found : List Char}
    {actions : List (Action ε)} {s : State ε}
    (htidy : Throughout (State.next F) (fun s a => s.tidy F a = true) { file := .settled found } actions)
    (hrun : actions.foldlM (State.next F) { file := .settled found } = some s) :
    (∀ e ∈ s.acknowledged, F.entryId e ∈ seen F (openText F s.file.visible)) ∧
      ∀ text, (∀ e ∈ openText F text, F.verify e = .ok ()) ∧ (seen F (openText F text)).Nodup := by
  refine ⟨?_, openText_sound⟩
  have h : Kept F s := htidy.keeps (fun _ _ _ => Kept.next) (by simp [Kept]) hrun
  intro e he
  obtain ⟨hverify, line, hline, hholds⟩ := h e he
  exact seen_openText (hholds _ s.file.visible_mem_survivors) hline hverify

theorem acknowledged_entries_present_letters : ∃ s : State Bool,
    letterRun.foldlM (State.next letterFormat) { file := .settled [] } = some s ∧
      s.acknowledged = [true] ∧
      ∀ e ∈ s.acknowledged, e ∈ seen letterFormat (openText letterFormat s.file.visible) := by
  have htidy : Throughout (State.next letterFormat) (fun s a => s.tidy letterFormat a = true)
      { file := .settled [] } letterRun := by
    decide +kernel
  exact ⟨_, rfl, rfl, (acknowledged_entries_present letterFormat htidy rfl).1⟩

end Theyos.MeshLog

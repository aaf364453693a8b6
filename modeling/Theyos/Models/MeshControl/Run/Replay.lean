import Theyos.Models.MeshControl.Run.Fencing

/-!
# Replays of terminal requests

As long as the result of a terminal request is retained, the same request is answered with the
record as it is, and any other request under its transaction is refused. Retention keeps results
in the order in which they were recorded.
-/

namespace Theyos.MeshControl

open MeshSignerControlRecordV1 Machine

variable {H : Hashes} {identity : ControlIdentity} {purpose : PurposeId}
  {old new r : MeshSignerControlRecordV1} {x : Submission}
  {now : UInt64} {t : RecordTransition} {txnId : TxnId} {request : TerminalRequestFingerprint}

/-- The submission recorded `entry` after making room for it. -/
structure Records (t : RecordTransition) (v w : List TerminalResult) (force : Bool)
    (kept : List TerminalResult) (entry : TerminalResult) : Prop where
  room : MakesRoom force v kept
  unused : ∀ e ∈ v, e.txnId ≠ entry.txnId
  appended : w = kept ++ [entry]
  unacked : entry.acked = false
  request : t.terminalRequest = some (entry.txnId, entry.request)
  forced : force = true → ∃ reason txnId, t = .revokeUrgent reason txnId

/-- What can become of the recorded results. -/
theorem Effect.results_cases (h : Effect H old now t new) :
    new.recentTerminalResults = old.recentTerminalResults ∧ t.terminalRequest = none ∨
      (∃ txnId, new.recentTerminalResults = ackTerminal old.recentTerminalResults txnId ∧
        t.terminalRequest = none) ∨
      ∃ force kept entry,
        Records t old.recentTerminalResults new.recentTerminalResults force kept entry := by
  cases h with
  | @activateFromKeyObserved token delegation p _ _ _ _ _ _ hmatch _ hunused hroom =>
    obtain ⟨htxn, _, hgen, _⟩ := pendingMatchesToken_iff.mp hmatch
    refine Or.inr (Or.inr ⟨false, _, _, hroom, hunused, rfl, rfl, ?_, nofun⟩)
    simp only [RecordTransition.terminalRequest, unackedResult, htxn, hgen]
  | revokeUrgent _ hunused hroom =>
    exact Or.inr (Or.inr ⟨true, _, _, hroom, hunused, rfl, rfl, rfl, fun _ => ⟨_, _, rfl⟩⟩)
  | reactivateFromRevoked _ _ _ _ _ _ hunused hroom =>
    exact Or.inr (Or.inr ⟨false, _, _, hroom, hunused, rfl, rfl, rfl, nofun⟩)
  | terminalAcked => exact Or.inr (Or.inl ⟨_, rfl, rfl⟩)
  | gcRewritten hrewrites =>
    refine Or.inl ⟨rfl, ?_⟩
    cases t <;> first | rfl | cases hrewrites
  | _ => exact Or.inl ⟨rfl, rfl⟩

/-- The request is recorded under its transaction. -/
def Recorded (txnId : TxnId) (request : TerminalRequestFingerprint)
    (r : MeshSignerControlRecordV1) : Prop :=
  ∃ e ∈ r.recentTerminalResults, e.txnId = txnId ∧ e.request = request

/-- A recorded request is found under its transaction. -/
theorem recorded_find (hw : Wellformed H r) (h : Recorded txnId request r) :
    ∃ e, r.recentTerminalResults.find? (·.txnId == txnId) = some e ∧ e.request = request := by
  obtain ⟨e, he, htxn, hreq⟩ := h
  cases hfind : r.recentTerminalResults.find? (·.txnId == txnId) with
  | none =>
    have := List.find?_eq_none.mp hfind e he
    simp [htxn] at this
  | some e' =>
    have he' := List.mem_of_find?_eq_some hfind
    have htxn' := List.find?_some hfind
    simp only [beq_iff_eq] at htxn'
    have := List.inj_on_of_nodup_map hw.terminal.nodup he he' (htxn.trans htxn'.symm)
    exact ⟨e', rfl, by rw [← this]; exact hreq⟩

/-- A recorded request is answered without a change, another one under its transaction refused. -/
theorem recorded_apply (hw : Wellformed H r) (h : Recorded txnId request r) {maxCap : ℕ}
    {request' : TerminalRequestFingerprint} (ht : t.terminalRequest = some (txnId, request')) :
    apply H r t now maxCap =
      if request = request' then .ok r else .error .terminalTxnReused := by
  obtain ⟨e, hfind, rfl⟩ := recorded_find hw h
  have hreplay : idempotentReplay r t = _ := idempotentReplay_eq ht
  rw [hfind, Option.map_some] at hreplay
  unfold apply
  rw [hreplay]

/-- An effective terminal submission records its request. -/
theorem recorded_of_effect (h : Effect H old now t new)
    (ht : t.terminalRequest = some (txnId, request)) : Recorded txnId request new := by
  rcases h.results_cases with ⟨_, hnone⟩ | ⟨_, _, hnone⟩ | ⟨_, kept, entry, hrec⟩
  · rw [ht] at hnone
    cases hnone
  · rw [ht] at hnone
    cases hnone
  · have he := hrec.request
    rw [ht] at he
    cases he
    exact ⟨entry, by rw [hrec.appended]; simp, rfl, rfl⟩

/-- A recorded request stays recorded as long as its transaction is retained. -/
theorem recorded_submit (h : Recorded txnId request old) (hs : submit H old x = .ok new)
    (hkept : txnId ∈ new.recentTerminalResults.map (·.txnId)) (hw : Wellformed H old) :
    Recorded txnId request new := by
  rcases submit_cases hs with rfl | ⟨heffect, _⟩
  · exact h
  obtain ⟨e, he, htxn, hreq⟩ := h
  rcases heffect.results_cases with ⟨hsame, _⟩ | ⟨acked, hack, _⟩ | ⟨_, kept, entry, hrec⟩
  · exact ⟨e, by rw [hsame]; exact he, htxn, hreq⟩
  · refine ⟨if e.txnId == acked then { e with acked := true } else e, ?_, ?_, ?_⟩
    · rw [hack]
      exact List.mem_map.mpr ⟨e, he, rfl⟩
    · split <;> exact htxn
    · split <;> exact hreq
  · rw [hrec.appended] at hkept
    obtain ⟨e', he', htxn'⟩ := List.mem_map.mp hkept
    rcases List.mem_append.mp he' with he' | he'
    · have hee := List.inj_on_of_nodup_map hw.terminal.nodup he (hrec.room.sublist.subset he')
        (htxn.trans htxn'.symm)
      refine ⟨e', ?_, htxn', by rw [← hee]; exact hreq⟩
      rw [hrec.appended]
      exact List.mem_append_left _ he'
    · rw [List.mem_singleton.mp he'] at htxn'
      exact absurd (htxn.trans htxn'.symm) (hrec.unused e he)

/-- A recorded request stays recorded over a run that retains its transaction. -/
theorem recorded_run {steps : List Submission} (hw : Wellformed H r)
    (h : Recorded txnId request r)
    (hkept : ∀ before after, steps = before ++ after →
      txnId ∈ (run (submit H) r before).recentTerminalResults.map (·.txnId)) :
    Recorded txnId request (run (submit H) r steps) := by
  induction steps generalizing r with
  | nil => exact h
  | cons y steps ih =>
    rw [run_cons]
    rcases advance_cases (submit H) r y with hok | hsame
    · refine ih (hw.submit hok) (recorded_submit h hok (hkept [y] steps rfl) hw) ?_
      intro before after he
      exact hkept (y :: before) after (by rw [he]; rfl)
    · rw [hsame]
      refine ih hw h ?_
      intro before after he
      have := hkept (y :: before) after (by rw [he]; rfl)
      rwa [run_cons, hsame] at this

/-- A submission that leaves a new request recorded made that request. -/
theorem terminalRequest_of_recorded (hs : submit H old x = .ok new)
    (hold : ¬ Recorded txnId request old) (hnew : Recorded txnId request new) :
    x.transition.terminalRequest = some (txnId, request) := by
  rcases submit_cases hs with rfl | ⟨heffect, _⟩
  · exact absurd hnew hold
  obtain ⟨e, he, htxn, hreq⟩ := hnew
  rcases heffect.results_cases with ⟨hsame, _⟩ | ⟨acked, hack, _⟩ | ⟨_, kept, entry, hrec⟩
  · rw [hsame] at he
    exact absurd ⟨e, he, htxn, hreq⟩ hold
  · rw [hack] at he
    obtain ⟨e', he', rfl⟩ := List.mem_map.mp he
    refine absurd ⟨e', he', ?_, ?_⟩ hold
    · rw [← htxn]
      split <;> rfl
    · rw [← hreq]
      split <;> rfl
  · rw [hrec.appended] at he
    rcases List.mem_append.mp he with he | he
    · exact absurd ⟨e, hrec.room.sublist.subset he, htxn, hreq⟩ hold
    · cases List.mem_singleton.mp he
      rw [hrec.request, htxn, hreq]

/-- A request that became recorded along a run was made with effect in it. -/
theorem exists_recording {steps : List Submission} (hr : ¬ Recorded txnId request r)
    (h : Recorded txnId request (run (submit H) r steps)) :
    ∃ before x after new, steps = before ++ x :: after ∧
      submit H (run (submit H) r before) x = .ok new ∧ new ≠ run (submit H) r before ∧
        x.transition.terminalRequest = some (txnId, request) := by
  obtain ⟨before, x, after, he, hbefore, new, hs, hnew⟩ := exists_rise (submit H) hr h
  refine ⟨before, x, after, new, he, hs, ?_, terminalRequest_of_recorded hs hbefore hnew⟩
  rintro rfl
  exact hbefore hnew

/-- A result before any acknowledgement. -/
def TerminalResult.unacked (e : TerminalResult) : TerminalResult := { e with acked := false }

/-- The result an attempted submission recorded, if it recorded one. -/
def newResult (H : Hashes) (r : MeshSignerControlRecordV1) (x : Submission) :
    Option TerminalResult :=
  if x.transition.terminalRequest.isSome ∧ advance (submit H) r x ≠ r then
    (advance (submit H) r x).recentTerminalResults.getLast?
  else none

/-- The results recorded over a run, in the order of their recording. -/
def recordedHistory (H : Hashes) : MeshSignerControlRecordV1 → List Submission → List TerminalResult
  | _, [] => []
  | r, x :: xs => (newResult H r x).toList ++ recordedHistory H (advance (submit H) r x) xs

/-- One submission keeps the results in recording order. -/
theorem results_sublist_advance (r : MeshSignerControlRecordV1) (x : Submission) :
    ((advance (submit H) r x).recentTerminalResults.map (·.unacked)).Sublist
      (r.recentTerminalResults.map (·.unacked) ++ (newResult H r x).toList) := by
  by_cases hne : advance (submit H) r x = r
  · rw [hne]
    exact List.sublist_append_left _ _
  have hok := step_of_advance_ne hne
  rcases (effect_of_ne hok hne).1.results_cases with ⟨hsame, _⟩ | ⟨_, hack, _⟩ |
    ⟨_, kept, entry, hrec⟩
  · rw [hsame]
    exact List.sublist_append_left _ _
  · rw [hack, map_ackTerminal _ (fun _ => rfl)]
    exact List.sublist_append_left _ _
  · have hnew : newResult H r x = some entry := by
      rw [newResult, if_pos ⟨by rw [hrec.request]; rfl, hne⟩, hrec.appended]
      simp
    have hentry : entry.unacked = entry := by
      simp only [TerminalResult.unacked, ← hrec.unacked]
    rw [hrec.appended, hnew, List.map_append, List.map_singleton, hentry]
    exact (hrec.room.sublist.map _).append (List.Sublist.refl _)

/-- Up to acknowledgements, the results are in the order of their recording. -/
theorem results_sublist_recordedHistory (r : MeshSignerControlRecordV1) (steps : List Submission) :
    ((run (submit H) r steps).recentTerminalResults.map (·.unacked)).Sublist
      (r.recentTerminalResults.map (·.unacked) ++ recordedHistory H r steps) := by
  induction steps generalizing r with
  | nil =>
    rw [run_nil, recordedHistory, List.append_nil]
  | cons x steps ih =>
    rw [recordedHistory, ← List.append_assoc]
    exact (ih _).trans ((results_sublist_advance r x).append_right _)

/-- A result is dropped only if it was acknowledged, or as the oldest of a full and
unacknowledged list by an urgent revocation. -/
theorem evicted_cases (hw : Wellformed H old) (h : submit H old x = .ok new) {e : TerminalResult}
    (he : e ∈ old.recentTerminalResults)
    (hgone : e.txnId ∉ new.recentTerminalResults.map (·.txnId)) :
    e.acked = true ∨
      x.Revokes ∧ old.recentTerminalResults.length = maxRecentTerminalResults ∧
        (∀ o ∈ old.recentTerminalResults, o.acked = false) ∧
          old.recentTerminalResults.head? = some e := by
  rcases submit_cases h with rfl | ⟨heffect, _⟩
  · exact absurd (List.mem_map.mpr ⟨e, he, rfl⟩) hgone
  rcases heffect.results_cases with ⟨hsame, _⟩ | ⟨_, hack, _⟩ | ⟨_, kept, entry, hrec⟩
  · rw [hsame] at hgone
    exact absurd (List.mem_map.mpr ⟨e, he, rfl⟩) hgone
  · rw [hack, map_ackTerminal _ (fun _ => rfl)] at hgone
    exact absurd (List.mem_map.mpr ⟨e, he, rfl⟩) hgone
  · have hdropped : e ∉ kept := by
      intro hk
      rw [hrec.appended] at hgone
      exact hgone (List.mem_map.mpr ⟨e, List.mem_append_left _ hk, rfl⟩)
    obtain ⟨hfull, hacked | ⟨hforce, hall, hhead⟩⟩ := hrec.room.dropped he hdropped
    · exact Or.inl hacked
    · exact Or.inr ⟨hrec.forced hforce, le_antisymm hw.terminal.length hfull, hall, hhead⟩

/-- Lost acknowledgements are safe to retry. While the result of an effective terminal
request is retained, the request is answered with the record as it is and any other
request under its transaction is refused. Results are dropped only once acknowledged,
or oldest first by urgent revocations that find eight unacknowledged results. -/
theorem terminal_replay {r₁ : MeshSignerControlRecordV1} {steps : List Submission}
    (hr : Reached H identity purpose r)
    (ht : x.transition.terminalRequest = some (txnId, request))
    (hok : submit H r x = .ok r₁) (hne : r₁ ≠ r)
    (hretained : ∀ before after, steps = before ++ after →
      txnId ∈ (run (submit H) r₁ before).recentTerminalResults.map (·.txnId)) :
    (∀ now maxCap, apply H (run (submit H) r₁ steps) x.transition now maxCap =
        .ok (run (submit H) r₁ steps)) ∧
      (∀ t request' now maxCap, t.terminalRequest = some (txnId, request') → request' ≠ request →
        apply H (run (submit H) r₁ steps) t now maxCap = .error .terminalTxnReused) ∧
      (∀ (r' new : MeshSignerControlRecordV1) (y : Submission) (e : TerminalResult),
        Reached H identity purpose r' → submit H r' y = .ok new →
        e ∈ r'.recentTerminalResults → e.txnId ∉ new.recentTerminalResults.map (·.txnId) →
          e.acked = true ∨
            y.Revokes ∧ r'.recentTerminalResults.length = maxRecentTerminalResults ∧
              (∀ o ∈ r'.recentTerminalResults, o.acked = false) ∧
                r'.recentTerminalResults.head? = some e) ∧
      ∀ history : List Submission,
        ((run (submit H) (bootstrap identity purpose) history).recentTerminalResults.map
          (·.unacked)).Sublist (recordedHistory H (bootstrap identity purpose) history) := by
  have hw₁ : Wellformed H r₁ := hr.wellformed.submit hok
  have hw : Wellformed H (run (submit H) r₁ steps) :=
    Reached.wellformed ((hr.of_step hok).run steps)
  have hrecorded : Recorded txnId request (run (submit H) r₁ steps) :=
    recorded_run hw₁ (recorded_of_effect (effect_of_ne hok hne).1 ht) hretained
  refine ⟨?_, ?_, ?_, ?_⟩
  · intro now maxCap
    rw [recorded_apply hw hrecorded ht, if_pos rfl]
  · intro t request' now maxCap ht' hdiff
    rw [recorded_apply hw hrecorded ht', if_neg hdiff.symm]
  · intro r' new y e hr' hy he hgone
    exact evicted_cases hr'.wellformed hy he hgone
  · intro history
    exact results_sublist_recordedHistory _ history

/-- A revocation whose acknowledgement was lost is retried after a reactivation. -/
theorem terminal_replay_revocation :
    let r := run (submit fieldHashes) (bootstrap smallIdentity .meshSession)
      [(RecordTransition.revokeUrgent .lost (repeatedTxn 1)).submission,
        (RecordTransition.reactivateFromRevoked (repeatedTxn 2) (repeatedTxn 3) .file).submission]
    apply fieldHashes r (.revokeUrgent .lost (repeatedTxn 1)) 7 0 = .ok r := by
  have hreach : Reached fieldHashes smallIdentity .meshSession
      (bootstrap smallIdentity .meshSession) := Reachable.init _
  refine (terminal_replay (x := (RecordTransition.revokeUrgent .lost (repeatedTxn 1)).submission)
    hreach rfl rfl (by decide +kernel) ?_).1 7 0
  intro before after he
  cases before with
  | nil => decide +kernel
  | cons y ys =>
    obtain ⟨rfl, hys⟩ := List.cons.inj he
    obtain ⟨rfl, rfl⟩ := List.append_eq_nil_iff.mp hys.symm
    decide +kernel

end Theyos.MeshControl

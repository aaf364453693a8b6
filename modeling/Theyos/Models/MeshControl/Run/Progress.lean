import Theyos.Models.MeshControl.Run.Fencing

/-!
# Operations in flight can be completed

The transaction of an operation in flight is unused by the recorded results, if it was unused when
the operation started. Such an operation can be driven to an active record under its own token,
after acknowledging a result where retention is full.
-/

namespace Theyos.MeshControl

open MeshSignerControlRecordV1 Machine

variable {H : Hashes} {identity : ControlIdentity} {purpose : PurposeId}
  {old new r : MeshSignerControlRecordV1} {x : Submission} {p q : PendingOp}
  {now : UInt64} {t : RecordTransition} {maxCap : ℕ}

/-- While an operation stays in flight, no transaction is recorded or forgotten. -/
theorem Effect.txnIds_of_pending (h : Effect H old now t new) (hold : old.pendingOp ≠ none)
    (hnew : new.pendingOp ≠ none) :
    new.recentTerminalResults.map (·.txnId) = old.recentTerminalResults.map (·.txnId) := by
  cases h with
  | intentRecorded hidle | reactivateFromRevoked _ hidle => exact absurd hidle hold
  | activateFromKeyObserved | revokeUrgent => exact absurd rfl hnew
  | terminalAcked => exact map_ackTerminal _ (fun _ => rfl) _ _
  | _ => rfl

/-- The transaction of `p` is unused while an operation with its number is in flight. -/
def Unrecorded (p : PendingOp) (r : MeshSignerControlRecordV1) : Prop :=
  ∀ q, r.pendingOp = some q → q.generation = p.generation →
    p.txnId ∉ r.recentTerminalResults.map (·.txnId)

theorem Unrecorded.submit (hc : Continues p old) (hu : Unrecorded p old)
    (h : submit H old x = .ok new) : Unrecorded p new := by
  rcases submit_cases h with rfl | ⟨heffect, _⟩
  · exact hu
  intro q hq hgen
  have hkeep : ∀ o, old.pendingOp = some o → o.generation = p.generation →
      p.txnId ∉ new.recentTerminalResults.map (·.txnId) := by
    intro o ho hgo
    rw [heffect.txnIds_of_pending (by simp [ho]) (by simp [hq])]
    exact hu o ho hgo
  rcases heffect.pendingOp_cases hq with hold | ⟨_, _, hlt⟩ | ⟨q', _, b, _, hold, _, rfl⟩
  · exact hkeep q hold hgen
  · have hle := hc.1
    rw [hgen] at hlt
    omega
  · exact hkeep q' hold hgen

/-- A reactivation that names its own transaction as the next one. -/
def RecordTransition.SelfColliding (t : RecordTransition) : Prop :=
  ∃ txnId backend, t = .reactivateFromRevoked txnId txnId backend

/-- A started operation's transaction is unused unless its reactivation collides with itself. -/
theorem Assigns.unrecorded (h : Assigns H r x p) (hx : ¬ x.transition.SelfColliding) :
    p.txnId ∉ (advance (submit H) r x).recentTerminalResults.map (·.txnId) := by
  obtain ⟨ht, new, hsubmit, hne, hp⟩ := h
  rw [advance_ok hsubmit]
  have heffect := (effect_of_ne hsubmit hne).1
  generalize x.transition = t at ht hx heffect
  intro hmem
  obtain ⟨e, he, heq⟩ := List.mem_map.mp hmem
  cases heffect with
  | intentRecorded _ hunused =>
    cases hp
    exact hunused e he heq
  | @reactivateFromRevoked txnId nextTxnId backend _ _ _ _ _ _ hnext _ _ _ _ hroom =>
    cases hp
    rcases List.mem_append.mp he with he | he
    · exact hnext e (hroom.sublist.subset he) heq
    · rw [List.mem_singleton.mp he] at heq
      change txnId = nextTxnId at heq
      exact hx ⟨txnId, backend, by rw [heq]⟩
  | gcRewritten hrewrites => cases t <;> cases ht <;> cases hrewrites
  | _ => cases ht

/-- The transaction of an operation in flight stays unused. -/
theorem unrecorded_run {before after : List Submission}
    (h : Assigns H (run (submit H) (bootstrap identity purpose) before) x p)
    (hx : ¬ x.transition.SelfColliding) :
    Continues p (run (submit H) (bootstrap identity purpose) (before ++ x :: after)) ∧
      Unrecorded p (run (submit H) (bootstrap identity purpose) (before ++ x :: after)) := by
  rw [run_append]
  have hw : Wellformed H (advance (submit H)
      (run (submit H) (bootstrap identity purpose) before) x) :=
    Reached.wellformed (Reachable.advance ⟨before, rfl⟩ x)
  have hpending : (advance (submit H)
      (run (submit H) (bootstrap identity purpose) before) x).pendingOp = some p := by
    obtain ⟨_, new, hsubmit, _, hp⟩ := h
    rwa [advance_ok hsubmit]
  exact (run_invariant (P := fun r => Wellformed H r ∧ Continues p r ∧ Unrecorded p r)
    ⟨hw, continues_run hw hpending [], fun _ _ _ => h.unrecorded hx⟩
    (fun _ _ _ hP hs => ⟨hP.1.submit hs, hP.2.1.submit hP.1 hs, hP.2.2.submit hP.2.1 hs⟩) after).2

theorem pendingMatchesToken_token (p : PendingOp) (revision : UInt64) :
    pendingMatchesToken H p (p.token H revision) = true :=
  pendingMatchesToken_iff.mpr ⟨rfl, rfl, rfl, rfl, rfl, rfl⟩

variable {b : ExactBinding} {revision : UInt64}

/-- The key of an operation in flight can be observed under its token. -/
theorem keyObserved_ok (hw : Wellformed H r) (hp : r.pendingOp = some p)
    (hphase : p.phase = .intent) (hb : b.slot = p.canonicalSlot)
    (hbump : checkedAdd r.revision 1 = some revision) (now : UInt64) (maxCap : ℕ) :
    submit H r ⟨.keyObserved (p.token H r.revision) b, now, maxCap⟩ =
      .ok { r with
        pendingOp := some { p with phase := .keyObserved, binding := some b }
        revision := revision } := by
  refine apply_eq_ok.mpr (Or.inr ⟨?_, ?_⟩)
  · exact .keyObserved rfl hp hphase (pendingMatchesToken_token p _) hb hbump
  · refine Respects.of_kept hw rfl rfl (fun _ hg => hg) le_rfl le_rfl hw.gc_names ?_
    simp [capOccupancy, hp]

/-- Retention has room for a result, or makes it by dropping an acknowledged one. -/
def HasRoom (r : MeshSignerControlRecordV1) : Prop :=
  r.recentTerminalResults.length < maxRecentTerminalResults ∨
    ∃ e ∈ r.recentTerminalResults, e.acked = true

/-- An operation with an observed key can be activated under its token where retention has room. -/
theorem activate_ok (hw : Wellformed H r) (hp : r.pendingOp = some p)
    (hphase : p.phase = .keyObserved)
    (hunused : ∀ e ∈ r.recentTerminalResults, e.txnId ≠ p.txnId)
    (hroom : HasRoom r) (hrevision : r.revision ≠ maxU64) (delegation : Delegation) (now : UInt64)
    (maxCap : ℕ) :
    ∃ new, submit H r ⟨.activateFromKeyObserved (p.token H r.revision) delegation, now, maxCap⟩ =
        .ok new ∧ new.authority = .active ∧ new.currentGeneration = some p.generation := by
  obtain ⟨revision, hbump, _⟩ := checkedAdd_one_of_ne hrevision
  obtain ⟨kept, hkept⟩ := MakesRoom.exists_of_room false hroom
  obtain ⟨b, hb⟩ := Option.isSome_iff_exists.mp ((hw.pending p hp).phase.mp hphase)
  refine ⟨_, apply_eq_ok.mpr (Or.inr ⟨.activateFromKeyObserved rfl hp hphase
    (pendingMatchesToken_token p _) hb hunused hkept hbump, ?_⟩), rfl, rfl⟩
  refine Respects.of_kept hw rfl rfl (fun _ hg => List.mem_append_left _ hg) ?_ le_rfl
    hw.gc_names ?_
  · split
    · rename_i hlt
      exact (NonZeroU64.lt_iff.mp hlt).le
    · exact le_rfl
  · simp only [capOccupancy, hp, List.length_append, List.length_singleton, Option.isSome_none,
      Option.isSome_some, Bool.toNat_false, Bool.toNat_true]
    omega

/-- A recorded result can be acknowledged. -/
theorem terminalAcked_ok (hw : Wellformed H r) {e : TerminalResult}
    (he : e ∈ r.recentTerminalResults) (hbump : checkedAdd r.revision 1 = some revision)
    (now : UInt64) (maxCap : ℕ) :
    submit H r ⟨.terminalAcked e.txnId, now, maxCap⟩ =
      .ok { r with
        recentTerminalResults := ackTerminal r.recentTerminalResults e.txnId
        revision := revision } :=
  apply_eq_ok.mpr (Or.inr ⟨.terminalAcked ⟨e, he, rfl⟩ hbump,
    Respects.of_kept hw rfl rfl (fun _ hg => hg) le_rfl le_rfl hw.gc_names le_rfl⟩)

theorem avoids_bumpRevision : Avoids .terminalTxnReused (bumpRevision old new) :=
  (Avoids.okOr (by decide)).bind fun _ => Avoids.pure _

theorem avoids_validateSharedInvariants {allowed : AllowedRemoval} :
    Avoids .terminalTxnReused (validateSharedInvariants H old new allowed maxCap) :=
  .require_bind (by decide) <| .require_bind (by decide) <|
    .require_bind (by decide) <| .require_bind (by decide) <|
      .require_bind (by decide) <| .require_bind (by decide) <|
        Avoids.require (by decide)

theorem avoids_applyKeyObserved {token : WorkerToken} :
    Avoids .terminalTxnReused (applyKeyObserved H old token b) :=
  .require_bind (by decide) <| (Avoids.okOr (by decide)).bind fun _ =>
    .require_bind (by decide) <| .require_bind (by decide) <|
      .require_bind (by decide) <| avoids_bumpRevision

theorem avoids_applyActivateFromKeyObserved {token : WorkerToken} {d : Delegation} :
    Avoids .terminalTxnReused (applyActivateFromKeyObserved H old token d now) :=
  .require_bind (by decide) <| (Avoids.okOr (by decide)).bind fun _ =>
    .require_bind (by decide) <| .require_bind (by decide) <|
      (Avoids.okOr (by decide)).bind fun _ => (Avoids.mapError nofun).bind fun _ =>
        avoids_bumpRevision

/-- The submission of a token is never refused for a reused transaction. -/
theorem submit_ne_terminalTxnReused {y : Submission}
    (hunused : ∀ e ∈ r.recentTerminalResults, e.txnId ≠ p.txnId)
    (hy : CarriesToken H p y.transition) : submit H r y ≠ .error .terminalTxnReused := by
  obtain ⟨t, now, maxCap⟩ := y
  obtain ⟨revision, ⟨b, rfl⟩ | ⟨d, rfl⟩⟩ := hy
  · exact avoids_applyKeyObserved.bind fun _ =>
      avoids_validateSharedInvariants.bind fun _ => Avoids.pure _
  · have hnone : idempotentReplay r (.activateFromKeyObserved (p.token H revision) d) = none := by
      have hfind := find?_txnId_eq_none hunused
      rw [idempotentReplay_eq (t := .activateFromKeyObserved (p.token H revision) d) rfl]
      simp only [PendingOp.token, hfind, Option.map_none]
    simp only [submit, apply, hnone]
    exact avoids_applyActivateFromKeyObserved.bind fun _ =>
      avoids_validateSharedInvariants.bind fun _ => Avoids.pure _

/-- Every operation in flight was started by some submission of the run. -/
theorem exists_assigns {steps : List Submission}
    (hq : (run (submit H) (bootstrap identity purpose) steps).pendingOp = some q) :
    ∃ before x after p, steps = before ++ x :: after ∧
      Assigns H (run (submit H) (bootstrap identity purpose) before) x p ∧
        q.generation = p.generation := by
  obtain ⟨before, x, after, rfl, hbefore, new, hsubmit, o, ho, hgen⟩ :=
    exists_rise (submit H) (Q := fun r => ∃ o, r.pendingOp = some o ∧ o.generation = q.generation)
      (by simp [bootstrap]) ⟨q, hq, rfl⟩
  have hne : new ≠ run (submit H) (bootstrap identity purpose) before := by
    rintro rfl
    exact hbefore ⟨o, ho, hgen⟩
  rcases (effect_of_ne hsubmit hne).1.pendingOp_cases ho with hold | ⟨ht, _⟩ |
    ⟨o', _, b, _, hold, _, rfl⟩
  · exact absurd ⟨o, hold, hgen⟩ hbefore
  · exact ⟨before, x, after, o, rfl, ⟨ht, new, hsubmit, hne, ho⟩, hgen.symm⟩
  · exact absurd ⟨o', hold, hgen⟩ hbefore

/-- A key observation after the key was observed changes nothing. -/
theorem advance_keyObserved_again (hp : r.pendingOp = some p)
    (hphase : p.phase = .keyObserved) (token : WorkerToken) (b : ExactBinding) :
    advance (submit H) r ⟨.keyObserved token b, now, maxCap⟩ = r := by
  rcases advance_cases (submit H) r ⟨.keyObserved token b, now, maxCap⟩ with hok | hsame
  · rcases apply_eq_ok.mp hok with ⟨⟨_, _, _, ht, _⟩, _⟩ | ⟨heffect, _⟩
    · cases ht
    · generalize advance (submit H) r ⟨.keyObserved token b, now, maxCap⟩ = new at heffect
      cases heffect with
      | keyObserved _ hq hintent =>
        cases hp.symm.trans hq
        rw [hphase] at hintent
        cases hintent
      | gcRewritten hrewrites => cases hrewrites
  · exact hsame

/-- The two submissions of a worker that completes the operation `p`. -/
def PendingOp.completion (H : Hashes) (p : PendingOp) (first second : UInt64) (b : ExactBinding)
    (d : Delegation) (now : UInt64) (maxCap : ℕ) : List Submission :=
  [⟨.keyObserved (p.token H first) b, now, maxCap⟩,
    ⟨.activateFromKeyObserved (p.token H second) d, now, maxCap⟩]

/-- The record is active at the generation of `p`. -/
def ActiveAt (r : MeshSignerControlRecordV1) (p : PendingOp) : Prop :=
  r.authority = .active ∧ r.currentGeneration = some p.generation

theorem ne_max_of_lt {n : ℕ} (hn : 0 < n) (h : revision.toNat + n ≤ maxU64.toNat) :
    revision ≠ maxU64 := by
  rintro rfl
  omega

/-- Where retention has room, a worker completes the operation in flight. -/
theorem completion_active (hw : Wellformed H r) (hp : r.pendingOp = some p)
    (hunused : ∀ e ∈ r.recentTerminalResults, e.txnId ≠ p.txnId)
    (hroom : HasRoom r) (hrevision : r.revision.toNat + 2 ≤ maxU64.toNat) (hb : b.slot = p.canonicalSlot)
    (d : Delegation) (now : UInt64) (maxCap : ℕ) :
    ∃ first second, ActiveAt (run (submit H) r (p.completion H first second b d now maxCap)) p := by
  have hmax := ne_max_of_lt (by omega) hrevision
  cases hphase : p.phase with
  | intent =>
    obtain ⟨revision, hbump, hnext⟩ := checkedAdd_one_of_ne hmax
    have hobserved := keyObserved_ok hw hp hphase hb hbump now maxCap
    obtain ⟨new, hok, hactive⟩ := activate_ok (hw.submit hobserved) rfl rfl hunused
      hroom (ne_max_of_lt (n := 1) (by omega) (by simp only; omega)) d now maxCap
    have hrun : run (submit H) r (p.completion H r.revision revision b d now maxCap) = new := by
      simp only [PendingOp.completion, run_cons, run_nil, advance_ok hobserved]
      exact advance_ok hok
    refine ⟨r.revision, revision, ?_⟩
    rw [hrun]
    exact hactive
  | keyObserved =>
    obtain ⟨new, hok, hactive⟩ := activate_ok hw hp hphase hunused hroom hmax d now maxCap
    refine ⟨r.revision, r.revision, ?_⟩
    simp only [PendingOp.completion, run_cons, run_nil, advance_keyObserved_again hp hphase]
    rw [advance_ok hok]
    exact hactive

/-- A worker completes the operation in flight, after at most one acknowledgement where retention
has no room. -/
theorem exists_completion (hw : Wellformed H r) (hp : r.pendingOp = some p)
    (hunused : ∀ e ∈ r.recentTerminalResults, e.txnId ≠ p.txnId)
    (hrevision : r.revision.toNat + 3 ≤ maxU64.toNat) (hb : b.slot = p.canonicalSlot)
    (d : Delegation) (now : UInt64) (maxCap : ℕ) :
    ∃ (acks : List TxnId) (first second : UInt64), acks.length ≤ 1 ∧ (HasRoom r → acks = []) ∧
      ActiveAt (run (submit H) r
        (acks.map (fun txnId => ⟨.terminalAcked txnId, now, maxCap⟩) ++
          p.completion H first second b d now maxCap)) p := by
  by_cases hroom : HasRoom r
  · obtain ⟨first, second, hactive⟩ :=
      completion_active hw hp hunused hroom (by omega) hb d now maxCap
    exact ⟨[], first, second, Nat.zero_le _, fun _ => rfl, hactive⟩
  · obtain ⟨e, he⟩ : ∃ e, e ∈ r.recentTerminalResults := by
      apply List.exists_mem_of_length_pos
      have hpos : 0 < maxRecentTerminalResults := by decide
      have hfull := mt Or.inl hroom
      omega
    obtain ⟨revision, hbump, hnext⟩ := checkedAdd_one_of_ne (ne_max_of_lt (by omega) hrevision)
    have hacked := terminalAcked_ok hw he hbump now maxCap
    obtain ⟨first, second, hactive⟩ := completion_active (hw.submit hacked) hp (by
        intro o ho
        obtain ⟨o', ho', rfl⟩ := List.mem_map.mp ho
        have := hunused o' ho'
        split <;> exact this)
      (Or.inr ⟨{ e with acked := true }, List.mem_map.mpr ⟨e, he, by simp⟩, rfl⟩)
      (by simp only; omega) hb d now maxCap
    refine ⟨[e.txnId], first, second, le_rfl, fun h => absurd h hroom, ?_⟩
    rw [List.map_singleton, List.singleton_append, run_cons, advance_ok hacked]
    exact hactive

/-- Every operation in flight was started by an intent or a reactivation of the run.
Unless that was a reactivation naming its own transaction as the next one, the
operation's transaction is unused, its tokens are never refused for a reused
transaction, and a worker can drive it to an active record, with no other submission where
retention has room and one acknowledgement where it has none. -/
theorem pending_never_wedged {steps : List Submission}
    (hr : run (submit H) (bootstrap identity purpose) steps = r) (hq : r.pendingOp = some q) :
    ∃ before x after p, steps = before ++ x :: after ∧
      Assigns H (run (submit H) (bootstrap identity purpose) before) x p ∧ SameOp p q ∧
        (¬ x.transition.SelfColliding → (∀ e ∈ r.recentTerminalResults, e.txnId ≠ q.txnId) ∧
          (∀ y, CarriesToken H q y.transition → submit H r y ≠ .error .terminalTxnReused) ∧
          ∀ (b : ExactBinding) (d : Delegation) (now : UInt64) (maxCap : ℕ),
            b.slot = q.canonicalSlot → r.revision.toNat + 3 ≤ maxU64.toNat →
              ∃ (acks : List TxnId) (first second : UInt64),
                acks.length ≤ 1 ∧ (HasRoom r → acks = []) ∧ ActiveAt (run (submit H) r
                  (acks.map (fun txnId => ⟨.terminalAcked txnId, now, maxCap⟩) ++
                    q.completion H first second b d now maxCap)) q) := by
  subst hr
  obtain ⟨before, x, after, p, rfl, hassign, hgen⟩ := exists_assigns hq
  have hw : Wellformed H (run (submit H) (bootstrap identity purpose) (before ++ x :: after)) :=
    Reached.wellformed ⟨_, rfl⟩
  have hsame : SameOp p q := by
    obtain ⟨ht, new, hsubmit, hne, hp⟩ := hassign
    have hcont := continues_run
      ((Reached.wellformed ⟨before, rfl⟩).submit hsubmit) hp after
    rw [run_append, run_cons, advance_ok hsubmit] at hq
    exact (hcont.2 q hq hgen).1
  refine ⟨before, x, after, p, rfl, hassign, hsame, ?_⟩
  intro hx
  have hunused : ∀ e ∈ (run (submit H) (bootstrap identity purpose)
      (before ++ x :: after)).recentTerminalResults, e.txnId ≠ q.txnId := by
    intro e he heq
    apply (unrecorded_run hassign hx).2 q hq hgen
    rw [← hsame.txnId]
    exact List.mem_map.mpr ⟨e, he, heq⟩
  refine ⟨hunused, fun y hy => submit_ne_terminalTxnReused hunused hy, ?_⟩
  intro b d now maxCap hb hrevision
  exact exists_completion hw hq hunused hrevision hb d now maxCap

theorem pending_never_wedged_creation :
    ∃ first second : UInt64, ActiveAt (run (submit fieldHashes)
      (run (submit fieldHashes) (bootstrap smallIdentity .meshSession) [creation])
      ((firstOp (repeatedTxn 1)).completion fieldHashes first second
        ⟨firstSlot (repeatedTxn 1), [4], []⟩ (smallDelegation 9) 0 4))
      (firstOp (repeatedTxn 1)) := by
  have hcreated : run (submit fieldHashes) (bootstrap smallIdentity .meshSession) [creation] = _ :=
    rfl
  obtain ⟨before, x, after, p, he, _, _, hdrive⟩ := pending_never_wedged
    (q := firstOp (repeatedTxn 1)) hcreated (by decide +kernel)
  have hx : x = creation := by
    cases before with
    | nil => exact (List.cons.inj he).1.symm
    | cons y ys => simp at he
  have hplain : ¬ x.transition.SelfColliding := by
    rw [hx]
    rintro ⟨_, _, ht⟩
    cases ht
  obtain ⟨acks, first, second, _, hroom, hactive⟩ :=
    (hdrive hplain).2.2 ⟨firstSlot (repeatedTxn 1), [4], []⟩ (smallDelegation 9) 0 4 rfl
      (by decide +kernel)
  cases hroom (.inl (by decide +kernel))
  exact ⟨first, second, hactive⟩

/-- A record revoked and reactivated under a single transaction. -/
def collidingRun : List Submission :=
  [(RecordTransition.revokeUrgent .lost (repeatedTxn 1)).submission,
    (RecordTransition.reactivateFromRevoked (repeatedTxn 2) (repeatedTxn 2) .file).submission]

/-- The operation of that reactivation. -/
def collidingOp : PendingOp :=
  newPendingOp fieldHashes (bootstrap smallIdentity .meshSession) (repeatedTxn 2) .reactivate
    ⟨2, by decide⟩ ⟨3, by decide⟩ .file

/-- A self-colliding reactivation is accepted, and the activation of its operation is refused. -/
theorem self_colliding_reactivation_wedged :
    let r := run (submit fieldHashes) (bootstrap smallIdentity .meshSession) collidingRun
    let observed := advance (submit fieldHashes) r (RecordTransition.keyObserved
      (collidingOp.token fieldHashes 2) ⟨collidingOp.canonicalSlot, [4], []⟩).submission
    r.pendingOp = some collidingOp ∧
      collidingOp.txnId ∈ r.recentTerminalResults.map (·.txnId) ∧
        observed.pendingOp = some { collidingOp with
          phase := .keyObserved, binding := some ⟨collidingOp.canonicalSlot, [4], []⟩ } ∧
          submit fieldHashes observed (RecordTransition.activateFromKeyObserved
            (collidingOp.token fieldHashes 3) (smallDelegation 9)).submission =
              .error .terminalTxnReused := by
  refine ⟨?_, ?_, ?_, ?_⟩
  · decide +kernel
  · decide +kernel
  · decide +kernel
  · decide +kernel

end Theyos.MeshControl

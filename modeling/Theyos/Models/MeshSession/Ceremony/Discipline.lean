import Theyos.Core.Machine.History
import Theyos.Models.MeshSession.Ceremony.Acceptance

/-!
# The effects of a ceremony

A ceremony reserves at most one admission, and settles exactly what it reserved. The responder
consumes a nonce only after every check and confirms only after the nonce was committed; the
initiator commits only after the acknowledgement verified. This holds on every exit.
-/

namespace Theyos.MeshSession

open Machine Dialogue

section

variable {Key : Type} {isPoint : List UInt8 → Bool}

/-- The permit an exchange reserves. -/
def reservedPermit : Exchange (@Answer Key isPoint) → Option ℕ
  | ⟨.reservePending _, .ok permit⟩ => some permit
  | _ => none

/-- The permit an exchange commits. -/
def committedPermit : Exchange (@Answer Key isPoint) → Option ℕ
  | ⟨.commitAfterAck permit, _⟩ => some permit
  | _ => none

/-- The permit an exchange commits or cancels. -/
def settledPermit : Exchange (@Answer Key isPoint) → Option ℕ
  | ⟨.commitAfterAck permit, _⟩ => some permit
  | ⟨.cancelBeforeAck permit, _⟩ => some permit
  | _ => none

/-- The exchange asks for an admission. -/
def isReserve (e : Exchange (@Answer Key isPoint)) : Bool :=
  match e.1 with
  | .reservePending _ => true
  | _ => false

/-- The exchange asks to consume a nonce. -/
def isConsume (e : Exchange (@Answer Key isPoint)) : Bool :=
  match e.1 with
  | .consume _ _ _ _ => true
  | _ => false

/-- The admission is reserved at most once, settled exactly as often as it was reserved, and
committed exactly when a session is returned. -/
structure AdmissionDiscipline {α : Type} (r : Except AuthFrameError α)
    (w : CeremonyTranscript Key isPoint) : Prop where
  reserve_once : (w.filter isReserve).length ≤ 1
  settled_eq : w.filterMap settledPermit = w.filterMap reservedPermit
  committed_iff : w.filterMap committedPermit ≠ [] ↔ ∃ session, r = .ok session

variable {S : List Notable}

variable {e : Exchange (@Answer Key isPoint)}

theorem Within.not_admission (h : Within S e) (hS : .admission ∉ S) :
    isReserve e = false ∧ settledPermit e = none ∧ reservedPermit e = none ∧
      committedPermit e = none := by
  obtain ⟨q, a⟩ := e
  cases q with
  | reservePending _ | commitAfterAck _ | cancelBeforeAck _ => exact absurd (h _ rfl) hS
  | _ => exact ⟨rfl, rfl, rfl, rfl⟩

theorem isConsume_iff : isConsume e = true ↔ e.1.notable = some .nonce := by
  obtain ⟨q, a⟩ := e
  cases q <;> simp [isConsume, Request.notable]

/-- A part that has no exchange of a kind. -/
theorem Within.ne {n : Notable} (h : Within S e) (hn : n ∉ S) : e.1.notable ≠ some n :=
  fun he => hn (h n he)

/-- Every run settles what it reserves. -/
def Disciplined {α : Type} (x : Ceremony Key isPoint AuthFrameError α) : Prop :=
  ∀ r w, Yields x r w → AdmissionDiscipline r w

/-- No exchange concerns the admission. -/
structure Unadmitted (w : CeremonyTranscript Key isPoint) : Prop where
  reserve : w.filter isReserve = []
  settled : w.filterMap settledPermit = []
  reserved : w.filterMap reservedPermit = []
  committed : w.filterMap committedPermit = []

theorem unadmitted {ε α : Type} {x : Ceremony Key isPoint ε α} {r : Except ε α}
    {w : CeremonyTranscript Key isPoint} (hx : Says (Within S) x) (hS : .admission ∉ S)
    (h : Yields x r w) : Unadmitted w where
  reserve := List.filter_eq_nil_iff.mpr fun e he =>
    Bool.eq_false_iff.mp ((hx r w h e he).not_admission hS).1
  settled := hx.filterMap_eq_nil (fun _ he => (he.not_admission hS).2.1) h
  reserved := hx.filterMap_eq_nil (fun _ he => (he.not_admission hS).2.2.1) h
  committed := hx.filterMap_eq_nil (fun _ he => (he.not_admission hS).2.2.2) h

/-- Steps that do not concern the admission can be put in front. -/
theorem Disciplined.after {α β : Type} {x : Ceremony Key isPoint AuthFrameError α}
    {f : α → Ceremony Key isPoint AuthFrameError β} (hx : Says (Within S) x)
    (hS : .admission ∉ S) (hf : ∀ a, Disciplined (f a)) : Disciplined (x >>= f) := by
  intro r w h
  rcases yields_bind.mp h with ⟨e, rfl, he⟩ | ⟨a, w₁, w₂, h₁, h₂, rfl⟩
  · have hw := unadmitted hx hS he
    exact ⟨by simp [hw.reserve], by rw [hw.settled, hw.reserved], by simp [hw.committed]⟩
  · have hw := unadmitted hx hS h₁
    have hrest := hf a r w₂ h₂
    constructor
    · simpa [List.filter_append, hw.reserve] using hrest.reserve_once
    · simpa [List.filterMap_append, hw.settled, hw.reserved] using hrest.settled_eq
    · simpa [List.filterMap_append, hw.committed] using hrest.committed_iff

end

section

variable {Key : Type} {c : Crypto Key} {S : List Notable} {key : D1MembershipKey}
  {exchange : AuthCeremony c Unit}
  {w : c.Transcript}

/-- The three ways through an admission: refused, cancelled after a failed exchange, or committed
after a completed one. -/
theorem admitAround_yields {r : Except AuthFrameError Unit}
    (h : Yields (admitAround c key exchange) r w) :
    (∃ e, r = .error (.intent e) ∧ w = [⟨.reservePending key, .error e⟩]) ∨
    (∃ permit w₁ e outcome, r = .error (.ackExchangeFailedWithCancelOutcome e outcome) ∧
      Yields exchange (.error e) w₁ ∧
      w = ⟨.reservePending key, .ok permit⟩ :: (w₁ ++ [⟨.cancelBeforeAck permit, outcome⟩])) ∨
    ∃ permit w₁, r = .ok () ∧ Yields exchange (.ok ()) w₁ ∧
      w = ⟨.reservePending key, .ok permit⟩ :: (w₁ ++ [⟨.commitAfterAck permit, ()⟩]) := by
  obtain ⟨pending, w₁, hpending, rfl⟩ := yields_query_bind.mp h
  cases pending with
  | error e =>
    obtain ⟨rfl, rfl⟩ := yields_fail.mp hpending
    exact .inl ⟨e, rfl, rfl⟩
  | ok permit =>
    obtain ⟨outcome, w₂, w₃, hexchange, hsettle, rfl⟩ := yields_attempt_bind.mp hpending
    cases outcome with
    | ok u =>
      obtain ⟨_, w₄, hreturn, rfl⟩ := yields_query_bind.mp hsettle
      obtain ⟨rfl, rfl⟩ := yields_pure.mp hreturn
      exact .inr (.inr ⟨permit, w₂, rfl, hexchange, rfl⟩)
    | error e =>
      obtain ⟨outcome, w₄, hfail, rfl⟩ := yields_query_bind.mp hsettle
      obtain ⟨rfl, rfl⟩ := yields_fail.mp hfail
      exact .inr (.inl ⟨permit, w₂, e, outcome, rfl, hexchange, rfl⟩)

variable {α : Type}

/-- An exchange that does not concern the admission itself can stand between reserving and
settling it. -/
theorem admitAround_disciplined {session : α} (hx : Says (Within S) exchange)
    (hS : .admission ∉ S) :
    Disciplined (admitAround c key exchange >>= fun _ => pure session) := by
  intro r w h
  rcases yields_bind.mp h with ⟨e, rfl, he⟩ | ⟨_, w₁, w₂, h₁, h₂, rfl⟩
  · rcases admitAround_yields he with ⟨_, _, rfl⟩ | ⟨permit, w₁, _, _, _, hw, rfl⟩ | ⟨_, _, ⟨⟩, _⟩
    · exact ⟨Nat.le_refl 1, rfl, by simp [committedPermit]⟩
    · have hw := unadmitted hx hS hw
      constructor
      · simp [List.filter_cons, isReserve, hw.reserve]
      · simp [List.filterMap_cons, settledPermit, reservedPermit, hw.settled, hw.reserved]
      · simp [List.filterMap_cons, committedPermit, hw.committed]
  · obtain ⟨rfl, rfl⟩ := yields_pure.mp h₂
    rcases admitAround_yields h₁ with ⟨_, ⟨⟩, _⟩ | ⟨_, _, _, _, ⟨⟩, _⟩ | ⟨permit, w₁, _, hw, rfl⟩
    have hw := unadmitted hx hS hw
    rw [List.append_nil]
    constructor
    · simp [List.filter_cons, isReserve, hw.reserve]
    · simp [List.filterMap_cons, settledPermit, reservedPermit, hw.settled, hw.reserved]
    · simp [committedPermit]

end

section

variable {Key : Type} {c : Crypto Key} {F : Formats c.isPoint} {inputs : CeremonyInputs c.isPoint}
  {w : c.Transcript}

/-- A run of the responder that returns a session, stretch by stretch. -/
structure ResponderRun (c : Crypto Key) (F : Formats c.isPoint) (inputs : CeremonyInputs c.isPoint)
    (session : ActiveMeshSession) (w : c.Transcript) where
  handshaken : Handshaken
  accepted : AcceptedInitiator Key c.isPoint
  finalConfirm : FinalConfirm
  activate : Activate
  activateAck : ActivateAck
  permit : ℕ
  met : c.Transcript
  confirmed : c.Transcript
  prepared : c.Transcript
  acknowledged : c.Transcript
  met_yields : Yields (meetInitiator c F inputs) (.ok (handshaken, accepted)) met
  confirmed_yields : Yields (confirmInitiator c F inputs handshaken.hFinal accepted)
    (.ok (finalConfirm, activate)) confirmed
  prepared_yields : Yields (prepareAck c F inputs handshaken.hFinal activate accepted.expiresAt)
    (.ok activateAck) prepared
  acknowledged_yields : Yields (sendFrame c F (.activateAck activateAck)) (.ok ()) acknowledged
  transcript_eq : w = met ++
    ⟨.consume accepted.nonceKey accepted.intent.1.notAfter accepted.intentDigest
      inputs.expectedChannel, .ok .committed⟩ :: (confirmed ++ (prepared ++
    ⟨.reservePending (responderMembershipKey c inputs handshaken accepted), .ok permit⟩ ::
      (acknowledged ++ [⟨.commitAfterAck permit, ()⟩])))
  session_eq : session = responderSession c inputs handshaken accepted

namespace ResponderRun

variable {session : ActiveMeshSession} (run : ResponderRun c F inputs session w)

/-- Everything before the acknowledgement is sent. -/
def beforeAck : c.Transcript :=
  run.met ++ ⟨.consume run.accepted.nonceKey run.accepted.intent.1.notAfter
    run.accepted.intentDigest inputs.expectedChannel, .ok .committed⟩ ::
    (run.confirmed ++ (run.prepared ++ [⟨.reservePending
      (responderMembershipKey c inputs run.handshaken run.accepted), .ok run.permit⟩]))

theorem met_infix : run.met <:+: w :=
  (List.prefix_iff_exists_append_eq.mpr ⟨_, run.transcript_eq.symm⟩).isInfix

theorem confirmed_infix : run.confirmed <:+: w := by
  refine List.IsInfix.trans ?_ (List.suffix_iff_exists_append_eq.mpr
    ⟨_, run.transcript_eq.symm⟩).isInfix
  exact (List.prefix_append _ _).isInfix.trans (List.suffix_cons _ _).isInfix

theorem transcript_split :
    w = (run.beforeAck ++ run.acknowledged) ++ ⟨.commitAfterAck run.permit, ()⟩ :: [] :=
  run.transcript_eq.trans (by simp [beforeAck])

theorem uncommitted : ∀ e ∈ run.beforeAck ++ run.acknowledged, committedPermit e = none := by
  have hmet := (unadmitted says_meetInitiator (by simp) run.met_yields).committed
  have hconfirmed := (unadmitted (says_confirmInitiator
    (S := [.record (some typeFinalConfirm), .digest]) (by simp) (by simp) _ _) (by simp)
    run.confirmed_yields).committed
  have hprepared := (unadmitted (says_prepareAck (S := [.digest, .clock]) (by simp) (by simp) _ _ _)
    (by simp) run.prepared_yields).committed
  have hacked := (unadmitted (says_sendFrame (S := [.record (some typeActivateAck)])
    (by simp [AuthFrame.typeByte])) (by simp) run.acknowledged_yields).committed
  rw [← List.filterMap_eq_nil_iff, beforeAck, List.filterMap_append, List.filterMap_append, hmet,
    List.filterMap_cons_none rfl, List.filterMap_append, hconfirmed, List.filterMap_append,
    hprepared, List.filterMap_cons_none rfl, hacked]
  rfl

end ResponderRun

variable {outcome : Except IntentError NonceConsumeOutcome}

theorem nonceConsumed_eq_ok {u : Unit} :
    nonceConsumed outcome = .ok u ↔ outcome = .ok .committed := by
  rcases outcome with e | (_ | _ | _ | _) <;> simp [nonceConsumed]

theorem runResponderHandshake_ok {session : ActiveMeshSession}
    (h : Yields (runResponderHandshake c F inputs) (.ok session) w) :
    Nonempty (ResponderRun c F inputs session w) := by
  obtain ⟨⟨handshaken, accepted⟩, w₁, w₂, hmet, hconsume, rfl⟩ := yields_bind_ok.mp h
  obtain ⟨outcome, w₃, houtcome, rfl⟩ := yields_query_bind.mp hconsume
  obtain ⟨_, hcommitted, hcomplete⟩ := yields_lift_bind.mp houtcome
  obtain rfl := nonceConsumed_eq_ok.mp hcommitted
  obtain ⟨⟨finalConfirm, activate⟩, w₄, w₅, hconfirm, hprepare, rfl⟩ := yields_bind_ok.mp hcomplete
  obtain ⟨activateAck, w₆, w₇, hprepared, hadmission, rfl⟩ := yields_bind_ok.mp hprepare
  obtain ⟨_, w₈, w₉, hadmitted, hreturn, rfl⟩ := yields_bind_ok.mp hadmission
  obtain ⟨⟨⟩, rfl⟩ := yields_pure.mp hreturn
  rcases admitAround_yields hadmitted with
    ⟨_, ⟨⟩, _⟩ | ⟨_, _, _, _, ⟨⟩, _⟩ | ⟨permit, w₁₀, _, hack, rfl⟩
  exact ⟨⟨handshaken, accepted, finalConfirm, activate, activateAck, permit, w₁, w₄, w₆, w₁₀, hmet,
    hconfirm, hprepared, hack, by simp, rfl⟩⟩

variable {r : Except AuthFrameError ActiveMeshSession}

/-- A run of the responder ends before the nonce is consumed, or goes on after it only when the
consumption was committed. -/
theorem runResponderHandshake_yields (h : Yields (runResponderHandshake c F inputs) r w) :
    (∃ e, Yields (meetInitiator c F inputs) (.error e) w) ∨
    ∃ handshaken a outcome w₁ w₂, Yields (meetInitiator c F inputs) (.ok (handshaken, a)) w₁ ∧
      w = w₁ ++ ⟨.consume a.nonceKey a.intent.1.notAfter a.intentDigest inputs.expectedChannel,
        outcome⟩ :: w₂ ∧
      (w₂ = [] ∨ outcome = .ok .committed ∧
        Yields (completeResponder c F inputs handshaken a) r w₂) := by
  rcases yields_bind.mp h with ⟨e, _, he⟩ | ⟨⟨handshaken, a⟩, w₁, w₂, hmet, hconsume, rfl⟩
  · exact .inl ⟨e, he⟩
  obtain ⟨outcome, w₃, houtcome, rfl⟩ := yields_query_bind.mp hconsume
  refine .inr ⟨handshaken, a, outcome, w₁, w₃, hmet, rfl, ?_⟩
  rcases yields_bind.mp houtcome with ⟨e, _, he⟩ | ⟨_, w₄, w₅, hlift, hcomplete, rfl⟩
  · exact .inl (yields_lift.mp he).2
  · obtain ⟨hcommitted, rfl⟩ := yields_lift.mp hlift
    exact .inr ⟨nonceConsumed_eq_ok.mp hcommitted.symm, hcomplete⟩

theorem runResponderHandshake_disciplined : Disciplined (runResponderHandshake c F inputs) := by
  refine .after says_meetInitiator (by simp) fun ⟨handshaken, a⟩ => ?_
  refine .after (says_notable (S := [.nonce]) rfl (by simp)) (by simp) fun outcome => ?_
  refine .after (S := []) (Says.lift _) (by simp) fun _ => ?_
  refine .after (says_confirmInitiator (S := [.record (some typeFinalConfirm), .digest]) (by simp)
    (by simp) _ _) (by simp) fun _ => ?_
  refine .after (says_prepareAck (S := [.digest, .clock]) (by simp) (by simp) _ _ _) (by simp)
    fun _ => ?_
  exact admitAround_disciplined (S := [.record (some typeActivateAck)])
    (says_sendFrame (by simp [AuthFrame.typeByte])) (by simp)

variable (F inputs) in
/-- The effects of the responder are in order. -/
structure ResponderDiscipline (r : Except AuthFrameError ActiveMeshSession)
    (w : c.Transcript) : Prop extends AdmissionDiscipline r w where
  consume_once : (w.filter isConsume).length ≤ 1
  /-- A nonce is consumed only for an initiator that passed every check. -/
  consume_checked : ∀ before after key notAfter digest channel outcome,
    w = before ++ ⟨.consume key notAfter digest channel, outcome⟩ :: after →
    ∃ hFinal a, InitiatorAccepted F inputs hFinal a before ∧ key = a.nonceKey
  /-- Nothing of the confirmation exists on the wire before the nonce was committed. -/
  confirm_committed : ∀ before after plaintext ciphertext,
    w = before ++ ⟨.writeMessage plaintext, ciphertext⟩ :: after →
    plaintext.head? = some typeFinalConfirm →
    ∃ key notAfter digest channel, ⟨.consume key notAfter digest channel, .ok .committed⟩ ∈ before
  /-- The permit is committed right after the acknowledgement was written completely. -/
  commit_acked : ∀ before after permit,
    w = before ++ ⟨.commitAfterAck permit, ()⟩ :: after →
    ∃ earlier record activateAck, before = earlier ++ record ∧
      RecordWritten F (.activateAck activateAck) record

theorem meetInitiator_ne {r : Except AuthFrameError _}
    (h : Yields (meetInitiator c F inputs) r w) {n : Notable}
    (hn : n ∉ [.record (some typeProofR), .digest, .clock]) : ∀ e ∈ w, e.1.notable ≠ some n :=
  fun e he => (says_meetInitiator r w h e he).ne hn

theorem completeResponder_ne_nonce {handshaken : Handshaken}
    {a : AcceptedInitiator Key c.isPoint}
    (h : w = [] ∨ Yields (completeResponder c F inputs handshaken a) r w) :
    ∀ e ∈ w, e.1.notable ≠ some .nonce := by
  rcases h with rfl | h
  · exact nofun
  · exact fun e he => (says_completeResponder _ _ r w h e he).ne (by simp)

theorem runResponderHandshake_discipline (h : Yields (runResponderHandshake c F inputs) r w) :
    ResponderDiscipline F inputs r w where
  toAdmissionDiscipline := runResponderHandshake_disciplined r w h
  consume_once := by
    have hnil {w : c.Transcript} (hw : ∀ e ∈ w, e.1.notable ≠ some .nonce) :
        w.filter isConsume = [] :=
      List.filter_eq_nil_iff.mpr fun e he => mt isConsume_iff.mp (hw e he)
    rcases runResponderHandshake_yields h with
      ⟨e, he⟩ | ⟨_, _, outcome, w₁, w₂, hmet, rfl, hrest⟩
    · simp [hnil (meetInitiator_ne he (by simp))]
    · rw [List.filter_append, hnil (meetInitiator_ne hmet (by simp)), List.filter_cons_of_pos rfl,
        hnil (completeResponder_ne_nonce (hrest.imp_right And.right))]
      exact Nat.le_refl 1
  consume_checked before after key notAfter digest channel outcome hw := by
    have hnotable : (Request.consume key notAfter digest channel : Request Key c.isPoint).notable =
        some .nonce := rfl
    have hnonce : (.nonce : Notable) ∉ [.record (some typeProofR), .digest, .clock] := by simp
    rcases runResponderHandshake_yields h with
      ⟨e, he⟩ | ⟨handshaken, a, outcome', w₁, w₂, hmet, rfl, hrest⟩
    · exact absurd hnotable (meetInitiator_ne he hnonce _ (mem_of_split hw))
    · obtain ⟨rfl, heq, -⟩ := split_unique hw
        (meetInitiator_ne hmet hnonce)
        (completeResponder_ne_nonce (hrest.imp_right And.right)) hnotable
      cases heq
      exact ⟨handshaken.hFinal, a, (meetInitiator_ok (hmet.ran List.infix_rfl)).2, rfl⟩
  confirm_committed before after plaintext ciphertext hw htype := by
    have hnotable : (Request.writeMessage plaintext : Request Key c.isPoint).notable =
        some (.record (some typeFinalConfirm)) := by
      rw [Request.notable, htype]
    have htypes : (.record (some typeFinalConfirm) : Notable) ∉
        [.record (some typeProofR), .digest, .clock] := by
      simp [typeFinalConfirm, typeProofR]
    rcases runResponderHandshake_yields h with
      ⟨e, he⟩ | ⟨handshaken, a, outcome, w₁, w₂, hmet, rfl, hrest⟩
    · exact absurd hnotable (meetInitiator_ne he htypes _ (mem_of_split hw))
    · obtain ⟨between, rfl, rfl⟩ := split_after
        (A := fun e => e.1.notable = some (.record (some typeFinalConfirm))) hw
        (meetInitiator_ne hmet htypes) (by simp [Request.notable]) hnotable
      rcases hrest with hnil | ⟨rfl, _⟩
      · simp at hnil
      · exact ⟨_, _, _, _, List.mem_append_right _ List.mem_cons_self⟩
  commit_acked before after permit hw := by
    obtain ⟨session, rfl⟩ : ∃ session, r = .ok session := by
      refine (runResponderHandshake_disciplined r w h).committed_iff.mp ?_
      simp [hw, committedPermit]
    obtain ⟨run⟩ := runResponderHandshake_ok h
    obtain ⟨rfl, -, -⟩ := split_unique
      (run.transcript_split.symm.trans hw) (fun e he => not_not.mpr (run.uncommitted e he))
      (List.forall_mem_nil _) (by simp [committedPermit])
    exact ⟨run.beforeAck, run.acknowledged, run.activateAck, rfl,
      sendFrame_ok run.acknowledged_yields⟩

variable {pendingIntent : PendingIntent}

/-- A run of the initiator that returns a session, stretch by stretch. -/
structure InitiatorRun (c : Crypto Key) (F : Formats c.isPoint) (inputs : CeremonyInputs c.isPoint)
    (pendingIntent : PendingIntent) (session : ActiveMeshSession)
    (w : c.Transcript) where
  handshaken : Handshaken
  accepted : AcceptedResponder Key c.isPoint
  activate : Activate
  permit : ℕ
  met : c.Transcript
  exchanged : c.Transcript
  met_yields : Yields (meetResponder c F inputs pendingIntent)
    (.ok (handshaken, accepted, activate)) met
  exchanged_yields : Yields (exchangeAck c F pendingIntent handshaken.hFinal activate
    accepted.verifier) (.ok ()) exchanged
  transcript_eq : w = met ++
    ⟨.reservePending (initiatorMembershipKey c inputs pendingIntent handshaken), .ok permit⟩ ::
      (exchanged ++ [⟨.commitAfterAck permit, ()⟩])
  session_eq : session = initiatorSession c inputs pendingIntent handshaken accepted

namespace InitiatorRun

variable {session : ActiveMeshSession} (run : InitiatorRun c F inputs pendingIntent session w)

/-- Everything before the permit is committed. -/
def beforeCommit : c.Transcript :=
  run.met ++ ⟨.reservePending (initiatorMembershipKey c inputs pendingIntent run.handshaken),
    .ok run.permit⟩ :: run.exchanged

theorem transcript_split : w = run.beforeCommit ++ ⟨.commitAfterAck run.permit, ()⟩ :: [] :=
  run.transcript_eq.trans (by simp [beforeCommit])

theorem exchanged_infix : run.exchanged <:+: run.beforeCommit :=
  ((List.suffix_cons _ _).trans (List.suffix_append _ _)).isInfix

theorem uncommitted : ∀ e ∈ run.beforeCommit, committedPermit e = none := by
  have hmet := (unadmitted says_meetResponder (by simp) run.met_yields).committed
  have hexchanged := (unadmitted (says_exchangeAck _ _ _) (by simp) run.exchanged_yields).committed
  rw [← List.filterMap_eq_nil_iff, beforeCommit, List.filterMap_append, hmet,
    List.filterMap_cons_none rfl, hexchanged]
  rfl

end InitiatorRun

theorem runInitiatorHandshake_ok {session : ActiveMeshSession}
    (h : Yields (runInitiatorHandshake c F inputs pendingIntent) (.ok session) w) :
    Nonempty (InitiatorRun c F inputs pendingIntent session w) := by
  obtain ⟨⟨handshaken, accepted, activate⟩, w₁, w₂, hmet, hadmission, rfl⟩ := yields_bind_ok.mp h
  obtain ⟨_, w₃, w₄, hadmitted, hreturn, rfl⟩ := yields_bind_ok.mp hadmission
  obtain ⟨⟨⟩, rfl⟩ := yields_pure.mp hreturn
  rcases admitAround_yields hadmitted with
    ⟨_, ⟨⟩, _⟩ | ⟨_, _, _, _, ⟨⟩, _⟩ | ⟨permit, w₅, _, hexchange, rfl⟩
  exact ⟨⟨handshaken, accepted, activate, permit, w₁, w₅, hmet, hexchange, by simp, rfl⟩⟩

theorem runInitiatorHandshake_disciplined :
    Disciplined (runInitiatorHandshake c F inputs pendingIntent) :=
  .after says_meetResponder (by simp) fun _ =>
    admitAround_disciplined (says_exchangeAck _ _ _) (by simp)

variable (F inputs pendingIntent) in
/-- The effects of the initiator are in order. -/
structure InitiatorDiscipline (r : Except AuthFrameError ActiveMeshSession)
    (w : c.Transcript) : Prop extends AdmissionDiscipline r w where
  /-- The permit is committed only for a responder that passed every check and acknowledged the
  activation. -/
  commit_verified : ∀ before after permit,
    w = before ++ ⟨.commitAfterAck permit, ()⟩ :: after →
    ∃ hFinal a activate activateAck,
      ResponderAccepted F inputs pendingIntent hFinal a before ∧
      AckAccepted F pendingIntent hFinal activate a.verifier activateAck before

variable {r : Except AuthFrameError ActiveMeshSession}

theorem runInitiatorHandshake_discipline
    (h : Yields (runInitiatorHandshake c F inputs pendingIntent) r w) :
    InitiatorDiscipline F inputs pendingIntent r w where
  toAdmissionDiscipline := runInitiatorHandshake_disciplined r w h
  commit_verified before after permit hw := by
    obtain ⟨session, rfl⟩ : ∃ session, r = .ok session := by
      refine (runInitiatorHandshake_disciplined r w h).committed_iff.mp ?_
      simp [hw, committedPermit]
    obtain ⟨run⟩ := runInitiatorHandshake_ok h
    obtain ⟨rfl, -, -⟩ := split_unique
      (run.transcript_split.symm.trans hw) (fun e he => not_not.mpr (run.uncommitted e he))
      (List.forall_mem_nil _) (by simp [committedPermit])
    obtain ⟨-, -, haccepted⟩ := meetResponder_ok (run.met_yields.ran (List.prefix_append _ _).isInfix)
    obtain ⟨activateAck, hack⟩ := exchangeAck_ok (run.exchanged_yields.ran run.exchanged_infix)
    exact ⟨run.handshaken.hFinal, run.accepted, run.activate, activateAck, haccepted, hack⟩

end

/-- Whatever the peer, the stream and the collaborators answer, both sides keep their effects in
order on every exit. -/
theorem ceremony_effects_disciplined {Key : Type} (c : Crypto Key) (F : Formats c.isPoint)
    (inputs : CeremonyInputs c.isPoint) (pendingIntent : PendingIntent)
    (env : Environment (@Answer Key c.isPoint)) :
    ResponderDiscipline F inputs (run env [] (runResponderHandshake c F inputs)).1
        (run env [] (runResponderHandshake c F inputs)).2 ∧
      InitiatorDiscipline F inputs pendingIntent
        (run env [] (runInitiatorHandshake c F inputs pendingIntent)).1
        (run env [] (runInitiatorHandshake c F inputs pendingIntent)).2 :=
  ⟨runResponderHandshake_discipline (run_yields env [] _),
    runInitiatorHandshake_discipline (run_yields env [] _)⟩

end Theyos.MeshSession

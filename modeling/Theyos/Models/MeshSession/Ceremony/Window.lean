import Theyos.Models.MeshSession.Active.Expiry
import Theyos.Models.MeshSession.Ceremony.Discipline

/-!
# The validity window of a session

A session ends no later than the checkpoint, the two delegations, the lease, the ingress evidence
and the intent it rests on. The clock is read twice in a ceremony that returns a session, both
times before that end.
-/

namespace Theyos.MeshSession

open Machine Dialogue

section

variable {Key : Type} {isPoint : List UInt8 → Bool}

/-- The time an exchange reads. -/
def clockReading : Exchange (@Answer Key isPoint) → Option UInt64
  | ⟨.now, .ok now⟩ => some now
  | _ => none

/-- The times a ceremony read, in order. -/
def clockReadings (w : CeremonyTranscript Key isPoint) : List UInt64 := w.filterMap clockReading

theorem clockReadings_append (w w' : CeremonyTranscript Key isPoint) :
    clockReadings (w ++ w') = clockReadings w ++ clockReadings w' :=
  List.filterMap_append

/-- A part that does not look at the clock. -/
theorem unclocked {S : List Notable} {ε α : Type} {x : Ceremony Key isPoint ε α} {r : Except ε α}
    {w : CeremonyTranscript Key isPoint} (hx : Says (Within S) x) (hS : .clock ∉ S)
    (h : Yields x r w) : clockReadings w = [] :=
  hx.filterMap_eq_nil (fun ⟨q, a⟩ he => by
    cases q with
    | now => exact absurd (he _ rfl) hS
    | _ => rfl) h

variable {ε α β : Type} {x : Ceremony Key isPoint ε α} {f : α → Ceremony Key isPoint ε β}
  {P : α → List UInt64 → Prop} {Q : β → List UInt64 → Prop}

/-- On success, `P` holds of the value and of the times that were read. -/
def Reads (x : Ceremony Key isPoint ε α) (P : α → List UInt64 → Prop) : Prop :=
  ∀ a w, Yields x (.ok a) w → P a (clockReadings w)

namespace Reads

protected theorem bind (hx : Reads x P)
    (hf : ∀ a first, P a first → Reads (f a) fun b later => Q b (first ++ later)) :
    Reads (x >>= f) Q := by
  intro b w h
  obtain ⟨a, w₁, w₂, ha, hb, rfl⟩ := yields_bind_ok.mp h
  rw [clockReadings_append]
  exact hf a _ (hx a w₁ ha) b w₂ hb

/-- A part that does not look at the clock comes first. -/
theorem quiet_bind {S : List Notable} (hx : Says (Within S) x) (hS : .clock ∉ S)
    (hf : ∀ a w, Yields x (.ok a) w → Reads (f a) Q) : Reads (x >>= f) Q := by
  intro b w h
  obtain ⟨a, w₁, w₂, ha, hb, rfl⟩ := yields_bind_ok.mp h
  rw [clockReadings_append, unclocked hx hS ha]
  exact hf a w₁ ha b w₂ hb

theorem require_bind {p : Prop} [Decidable p] {e : ε} {f : Unit → Ceremony Key isPoint ε β}
    (hf : p → Reads (f ()) Q) : Reads (require p e >>= f) Q := by
  intro b w h
  obtain ⟨hp, hb⟩ := yields_require_bind.mp h
  exact hf hp b w hb

protected theorem pure {b : β} (h : Q b []) : Reads (Pure.pure b : Ceremony Key isPoint ε β) Q := by
  intro a w hw
  obtain ⟨⟨⟩, rfl⟩ := yields_pure.mp hw
  exact h

end Reads

end

section

variable (a b d e f g : UInt64)

theorem effectiveExpiresAt_le :
    effectiveExpiresAt a b d e f g ≤ a ∧ effectiveExpiresAt a b d e f g ≤ b ∧
      effectiveExpiresAt a b d e f g ≤ d ∧ effectiveExpiresAt a b d e f g ≤ e ∧
      effectiveExpiresAt a b d e f g ≤ f ∧ effectiveExpiresAt a b d e f g ≤ g := by
  have left {x y : UInt64} : min x y ≤ x := Std.min_le_left
  have right {x y z : UInt64} (h : y ≤ z) : min x y ≤ z := UInt64.le_trans Std.min_le_right h
  refine ⟨left, right left, right (right left), right (right (right left)),
    right (right (right (right left))), ?_⟩
  exact right (right (right (right Std.min_le_right)))

end

/-- The bounds on a session that ends at `expiresAt`, and on the two times its ceremony read. -/
structure SessionWindow {isPoint : List UInt8 → Bool} (inputs : CeremonyInputs isPoint)
    (initiator responder : DelegationWire) (intentNotAfter expiresAt : UInt64)
    (readings : List UInt64) : Prop where
  le_checkpoint : expiresAt ≤ inputs.checkpoint.notAfter
  le_initiator : expiresAt ≤ initiator.notAfter
  le_responder : expiresAt ≤ responder.notAfter
  le_lease : expiresAt ≤ inputs.leaseExpiresAt
  le_ingress : expiresAt ≤ inputs.ingressEvidence.ingressExpiry
  le_intent : expiresAt ≤ intentNotAfter
  intent_le : intentNotAfter ≤ initiator.notAfter
  twice : readings.length = 2
  unexpired : ∀ now ∈ readings, now < expiresAt
  /-- Both delegations were already valid. -/
  begun : ∀ now ∈ readings, initiator.notBefore ≤ now ∧ responder.notBefore ≤ now

section

variable {Key : Type} {c : Crypto Key} {F : Formats c.isPoint} {inputs : CeremonyInputs c.isPoint}
  {pendingIntent : PendingIntent} {w : c.Transcript}

theorem clockNow_reads : Reads (clockNow c) fun now readings => readings = [now] := by
  intro now w h
  obtain ⟨answer, _, hanswer, rfl⟩ := yields_query_bind.mp h
  obtain ⟨hnow, rfl⟩ := yields_lift.mp hanswer
  rw [mapError_eq_ok.mp hnow.symm]
  rfl

/-- The clock was read once, before `expiresAt`. -/
def ReadOnce (expiresAt : UInt64) (readings : List UInt64) : Prop :=
  ∃ now, readings = [now] ∧ now < expiresAt

variable {hFinal : List UInt8}

theorem acceptInitiator_reads :
    Reads (acceptInitiator c F inputs hFinal) fun a => ReadOnce a.expiresAt := by
  refine .quiet_bind (S := [.digest]) (says_awaitIntent (by simp)) (by simp) fun intent _ _ => ?_
  refine .quiet_bind (S := []) (says_awaitProofI _) (by simp) fun proof _ _ => ?_
  refine clockNow_reads.bind fun now readings hnow => ?_
  refine .quiet_bind (S := []) (says_runCombinedIntentCheck _ _ _ _ _) (by simp)
    fun checked _ hchecked => ?_
  refine .quiet_bind (S := []) says_checkCeremonyDeadline (by simp) fun _ _ _ => ?_
  exact .pure ⟨now, by simp [hnow], (runCombinedIntentCheck_ok (hchecked.ran List.infix_rfl)).unexpired⟩

/-- The responder reads the clock once before it consumes the nonce. -/
theorem meetInitiator_reads :
    Reads (meetInitiator c F inputs) fun met => ReadOnce met.2.expiresAt := by
  refine .quiet_bind (S := []) ((says_request rfl).bind fun _ => .require _ _) (by simp)
    fun _ _ _ => .require_bind fun _ => ?_
  refine .quiet_bind (S := []) (says_openCeremony _) (by simp) fun handshaken _ _ => ?_
  refine .quiet_bind (S := [.record (some typeProofR)]) (says_sendProofR (by simp) _) (by simp)
    fun _ _ _ => ?_
  refine acceptInitiator_reads.bind fun a readings hread => ?_
  exact .pure (by rwa [List.append_nil])

/-- The responder reads the clock once more before it asks for the admission. -/
theorem prepareAck_reads {activate : Activate} {expiresAt : UInt64} :
    Reads (prepareAck c F inputs hFinal activate expiresAt) fun _ => ReadOnce expiresAt := by
  refine .quiet_bind (S := [.digest]) (says_frameDigest (by simp) _) (by simp) fun _ _ _ => ?_
  refine .quiet_bind (S := []) (.lift _) (by simp) fun _ _ _ => ?_
  refine .quiet_bind (S := []) (says_signFrame _) (by simp) fun _ _ _ => ?_
  refine clockNow_reads.bind fun now readings hnow => .require_bind fun hlt => ?_
  exact .pure ⟨now, by simp [hnow], hlt⟩

theorem acceptResponder_reads :
    Reads (acceptResponder c F inputs pendingIntent hFinal) fun a => ReadOnce a.expiresAt := by
  refine .quiet_bind (S := []) (says_awaitProofR _) (by simp) fun proof _ _ => ?_
  refine clockNow_reads.bind fun now readings hnow => .require_bind fun hlt => ?_
  exact .pure ⟨now, by simp [hnow], hlt⟩

theorem prepareActivate_reads {finalConfirm : FinalConfirm} {expiresAt : UInt64} :
    Reads (prepareActivate c F pendingIntent hFinal finalConfirm expiresAt)
      fun _ => ReadOnce expiresAt := by
  refine .quiet_bind (S := [.digest]) (says_frameDigest (by simp) _) (by simp) fun _ _ _ => ?_
  refine .quiet_bind (S := []) (.lift _) (by simp) fun _ _ _ => ?_
  refine .quiet_bind (S := []) (says_signFrame _) (by simp) fun _ _ _ => ?_
  refine clockNow_reads.bind fun now readings hnow => .require_bind fun hlt => ?_
  exact .pure ⟨now, by simp [hnow], hlt⟩

/-- The initiator reads the clock twice before it reserves an admission. -/
theorem meetResponder_reads :
    Reads (meetResponder c F inputs pendingIntent) fun met readings =>
      ∃ first second, readings = [first, second] ∧ first < met.2.1.expiresAt ∧
        second < met.2.1.expiresAt := by
  refine .quiet_bind (S := []) ((says_request rfl).bind fun _ => .require _ _) (by simp)
    fun _ _ _ => .require_bind fun _ => ?_
  refine .quiet_bind (S := [.digest]) (says_verifyBindsTo (by simp)) (by simp) fun _ _ _ => ?_
  refine .quiet_bind (S := []) (says_openCeremony _) (by simp) fun handshaken _ _ => ?_
  refine acceptResponder_reads.bind fun a _ hfirst => ?_
  refine .quiet_bind (S := [.record (some intentTypeByte), .record (some typeProofI), .digest])
    (says_sendIntentAndProofI (by simp) (by simp) (by simp) _) (by simp) fun _ _ _ => ?_
  refine .quiet_bind (S := []) (says_awaitFinalConfirm _ _) (by simp) fun finalConfirm _ _ => ?_
  refine prepareActivate_reads.bind fun activate _ hsecond => .pure ?_
  obtain ⟨first, rfl, hlt⟩ := hfirst
  obtain ⟨second, rfl, hlt'⟩ := hsecond
  exact ⟨first, second, rfl, hlt, hlt'⟩

variable (inputs w) in
/-- The clock of a ceremony is past the beginning of the machine's own delegation and of every
delegation it had verified. -/
def ClockPastBeginnings : Prop :=
  ∀ now ∈ clockReadings w, inputs.localIdentity.delegation.1.notBefore ≤ now ∧
    ∀ d : MeshSessionDelegation c.isPoint, ⟨.verifyDelegation d, .ok ()⟩ ∈ w → d.1.notBefore ≤ now

variable {session : ActiveMeshSession}

theorem runResponderHandshake_clock (run : ResponderRun c F inputs session w) :
    ∃ first second, clockReadings w = [first, second] ∧ first < run.accepted.expiresAt ∧
      second < run.accepted.expiresAt := by
  obtain ⟨first, hfirst, hlt⟩ := meetInitiator_reads _ _ run.met_yields
  obtain ⟨second, hsecond, hlt'⟩ := prepareAck_reads _ _ run.prepared_yields
  have hconfirmed := unclocked (S := [.record (some typeFinalConfirm), .digest])
    (says_confirmInitiator (by simp) (by simp) _ _) (by simp) run.confirmed_yields
  have hacked := unclocked (S := [.record (some typeActivateAck)])
    (says_sendFrame (by simp [AuthFrame.typeByte])) (by simp) run.acknowledged_yields
  refine ⟨first, second, ?_, hlt, hlt'⟩
  refine (congrArg clockReadings run.transcript_eq).trans ?_
  rw [clockReadings_append, hfirst, clockReadings, List.filterMap_cons_none rfl, ← clockReadings,
    clockReadings_append, hconfirmed, clockReadings_append, hsecond, clockReadings,
    List.filterMap_cons_none rfl, ← clockReadings, clockReadings_append, hacked]
  rfl

theorem runInitiatorHandshake_clock (run : InitiatorRun c F inputs pendingIntent session w) :
    ∃ first second, clockReadings w = [first, second] ∧ first < run.accepted.expiresAt ∧
      second < run.accepted.expiresAt := by
  obtain ⟨first, second, hmet, hlt, hlt'⟩ := meetResponder_reads _ _ run.met_yields
  have hexchanged := unclocked (says_exchangeAck _ _ _) (by simp) run.exchanged_yields
  refine ⟨first, second, ?_, hlt, hlt'⟩
  refine (congrArg clockReadings run.transcript_eq).trans ?_
  rw [clockReadings_append, hmet, clockReadings, List.filterMap_cons_none rfl, ← clockReadings,
    clockReadings_append, hexchanged]
  rfl

end

/-- A session that either side returns lies within every bound it rests on, once the clock of its
ceremony is past the beginnings of the delegations; and its payloads cross before it expires. -/
theorem session_within_window {Key : Type} (c : Crypto Key) (F : Formats c.isPoint)
    (inputs : CeremonyInputs c.isPoint) (pendingIntent : PendingIntent) (session : ActiveMeshSession)
    (w : c.Transcript) (hclock : ClockPastBeginnings inputs w) :
    (Yields (runResponderHandshake c F inputs) (.ok session) w →
      ∃ a, InitiatorAccepted F inputs session.hFinal a w ∧
        SessionWindow inputs a.proofI.1.delegation.1 inputs.localIdentity.delegation.1
          a.intent.1.notAfter session.expiresAt (clockReadings w)) ∧
    (Yields (runInitiatorHandshake c F inputs pendingIntent) (.ok session) w →
      ∃ a, ResponderAccepted F inputs pendingIntent session.hFinal a w ∧
        SessionWindow inputs inputs.localIdentity.delegation.1 a.proofR.1.delegation.1
          pendingIntent.intent.1.notAfter session.expiresAt (clockReadings w)) ∧
    ∀ ops, Timely session.expiresAt ((SessionWorld.init session).runOps ops) := by
  refine ⟨fun h => ?_, fun h => ?_, timely_runOps session⟩
  · obtain ⟨run⟩ := runResponderHandshake_ok h
    obtain ⟨first, second, hreadings, hfirst, hsecond⟩ := runResponderHandshake_clock run
    have haccepted := (meetInitiator_ok (run.met_yields.ran run.met_infix)).2
    obtain ⟨now, -, hintent⟩ := haccepted.intent
    have hends : session.expiresAt = run.accepted.expiresAt := congrArg (·.expiresAt) run.session_eq
    have hhash : session.hFinal = run.handshaken.hFinal := congrArg (·.hFinal) run.session_eq
    refine ⟨run.accepted, hhash ▸ haccepted, ?_⟩
    rw [hends, hreadings]
    obtain ⟨h₁, h₂, h₃, h₄, h₅, h₆⟩ := hintent.expiresAt_eq ▸ effectiveExpiresAt_le _ _ _ _ _ _
    refine ⟨h₁, h₃, h₂, h₄, h₅, h₆, hintent.notAfter_le, rfl, by simp [hfirst, hsecond], ?_⟩
    intro now hnow
    obtain ⟨hlocal, hverified⟩ := hclock now (hreadings ▸ hnow)
    exact ⟨hverified _ haccepted.proof.delegation.verified, hlocal⟩
  · obtain ⟨run⟩ := runInitiatorHandshake_ok h
    obtain ⟨first, second, hreadings, hfirst, hsecond⟩ := runInitiatorHandshake_clock run
    obtain ⟨hintent, -, haccepted⟩ := meetResponder_ok (run.met_yields.ran
      (List.prefix_iff_exists_append_eq.mpr ⟨_, run.transcript_eq.symm⟩).isInfix)
    have hends : session.expiresAt = run.accepted.expiresAt := congrArg (·.expiresAt) run.session_eq
    have hhash : session.hFinal = run.handshaken.hFinal := congrArg (·.hFinal) run.session_eq
    refine ⟨run.accepted, hhash ▸ haccepted, ?_⟩
    rw [hends, hreadings]
    obtain ⟨h₁, h₂, h₃, h₄, h₅, h₆⟩ := haccepted.expiresAt_eq ▸ effectiveExpiresAt_le _ _ _ _ _ _
    refine ⟨h₁, h₂, h₃, h₄, h₅, h₆, hintent, rfl, by simp [hfirst, hsecond], ?_⟩
    intro now hnow
    obtain ⟨hlocal, hverified⟩ := hclock now (hreadings ▸ hnow)
    exact ⟨hlocal, hverified _ haccepted.delegation.verified⟩

section

/-- The times a ceremony reads are kept. -/
theorem mem_clockReadings_iff {w : CeremonyTranscript Key isPoint} {now : UInt64} :
    now ∈ clockReadings w ↔ .clock now ∈ w.filterMap ceremonyNote := by
  simp only [clockReadings, List.mem_filterMap]
  refine exists_congr fun ⟨q, a⟩ => and_congr_right fun _ => ?_
  cases q with
  | now => cases a <;> simp [clockReading, ceremonyNote]
  | _ => simp [clockReading, ceremonyNote]

theorem session_within_window_quiet :
    ∃ w, Yields (runResponderHandshake openCrypto quietFormats quietInputs) (.ok quietSession) w ∧
      ∃ a, InitiatorAccepted quietFormats quietInputs quietSession.hFinal a w ∧
        SessionWindow quietInputs a.proofI.1.delegation.1 quietInputs.localIdentity.delegation.1
          a.intent.1.notAfter quietSession.expiresAt (clockReadings w) := by
  obtain ⟨w, hw, -, hnotes, -⟩ := exists_quiet_run (.inr rfl)
  have hclock : ClockPastBeginnings quietInputs w := by
    intro now hnow
    obtain rfl : now = 120 := by simpa using hnotes _ (mem_clockReadings_iff.mp hnow)
    refine ⟨by decide, fun d hd => ?_⟩
    have hbegins : d.1.notBefore = 100 := by
      simpa using hnotes (.begins d.1.notBefore) (List.mem_filterMap.mpr ⟨_, hd, rfl⟩)
    rw [hbegins]
    decide
  exact ⟨w, hw, (session_within_window openCrypto quietFormats quietInputs
    ⟨quietIntent, .dev, [], Vector.replicate 32 0, 0, [], 0⟩
    quietSession w hclock).1 hw⟩

/-- A responder returns a session at time 50, although both delegations begin at 100. -/
theorem session_before_window :
    ∃ w, Yields (runResponderHandshake openCrypto quietFormats quietInputs) (.ok quietSession) w ∧
      50 ∈ clockReadings w ∧ quietInputs.localIdentity.delegation.1.notBefore = 100 ∧
      ∀ a, InitiatorAccepted quietFormats quietInputs quietSession.hFinal a w →
        ¬ SessionWindow quietInputs a.proofI.1.delegation.1
          quietInputs.localIdentity.delegation.1 a.intent.1.notAfter quietSession.expiresAt
          (clockReadings w) := by
  obtain ⟨w, hw, hclock, -, -⟩ := exists_quiet_run (.inl rfl)
  have hread := mem_clockReadings_iff.mpr hclock
  refine ⟨w, hw, hread, rfl, fun a _ hwindow => ?_⟩
  have hbegun := (hwindow.begun 50 hread).2
  exact absurd hbegun (by decide)

end

end Theyos.MeshSession

import Theyos.Models.MeshSession.Ceremony.Initiator

/-!
# Which part of a ceremony does what

Most exchanges of a ceremony touch nothing that outlives it. The notable ones are the records it
writes, the clock it reads, the digests it computes, the nonce it consumes and the admission it
reserves and settles.
-/

namespace Theyos.MeshSession

open Machine Dialogue

section

/-- The kinds of notable exchanges; a record is known by the type byte of its plaintext. -/
inductive Notable where
  | record (typeByte : Option UInt8)
  | clock
  | digest
  | nonce
  | admission
  deriving DecidableEq, Repr

variable {Key : Type} {isPoint : List UInt8 → Bool}

/-- What is notable about a question. -/
def Request.notable : Request Key isPoint → Option Notable
  | .writeMessage plaintext => some (.record plaintext.head?)
  | .now => some .clock
  | .sha256 _ => some .digest
  | .consume _ _ _ _ => some .nonce
  | .reservePending _ | .commitAfterAck _ | .cancelBeforeAck _ => some .admission
  | _ => none

/-- An exchange is not notable, or of a kind in `S`. -/
def Within (S : List Notable) (e : Exchange (@Answer Key isPoint)) : Prop :=
  ∀ n, e.1.notable = some n → n ∈ S

variable {S : List Notable}

theorem says_request {ε : Type} {q : Request Key isPoint} (hq : q.notable = none) :
    Says (Within S) (request q : Ceremony Key isPoint ε (Answer q)) :=
  .query fun _ _ hn => nomatch hq.symm.trans hn

theorem says_armStream : Says (Within S) (armStream : Ceremony Key isPoint _ _) :=
  (says_request rfl).bind fun _ => .require_bind <|
    (says_request rfl).bind fun _ => .require _ _

theorem says_readExactWithDeadline (missing : ℕ) :
    Says (Within S) (readExactWithDeadline missing : Ceremony Key isPoint _ _) := by
  induction missing using Nat.strongRecOn with
  | ind missing ih =>
    rw [readExactWithDeadline]
    split_ifs with hmissing
    · exact .pure _
    · refine (says_armStream).bind fun _ => (says_request rfl).bind fun chunk => ?_
      split
      · exact .fail _
      · exact .fail _
      · refine (says_request rfl).bind fun _ => .require_bind <| ?_
        refine (ih _ ?_).bind fun _ => .pure _
        rw [List.length_cons]
        omega

theorem says_writeAllWithDeadline (buf : List UInt8) :
    Says (Within S) (writeAllWithDeadline buf : Ceremony Key isPoint _ _) := by
  induction hlen : buf.length using Nat.strongRecOn generalizing buf with
  | ind len ih =>
    rw [writeAllWithDeadline]
    split_ifs with hbuf
    · exact .pure _
    · refine (says_armStream).bind fun _ => (says_request rfl).bind fun taken => ?_
      split
      · exact .fail _
      · exact .fail _
      · refine ih _ ?_ _ rfl
        rw [List.length_drop]
        omega

theorem says_readLengthPrefixedFrame (maxLen : ℕ) :
    Says (Within S) (readLengthPrefixedFrame maxLen : Ceremony Key isPoint _ _) :=
  (says_readExactWithDeadline _).bind fun _ => .require_bind <|
    says_readExactWithDeadline _

theorem says_writeLengthPrefixedFrame (body : List UInt8) (maxLen : ℕ) :
    Says (Within S) (writeLengthPrefixedFrame body maxLen : Ceremony Key isPoint _ _) :=
  .require_bind <| .require_bind <|
    (says_writeAllWithDeadline _).bind fun _ => says_writeAllWithDeadline _

theorem says_sendFlight : Says (Within S) (sendFlight : Ceremony Key isPoint _ _) := by
  refine (says_request rfl).bind fun message => ?_
  split
  · exact .fail _
  · exact (says_writeLengthPrefixedFrame _ _).adapt _

theorem says_receiveFlight : Says (Within S) (receiveFlight : Ceremony Key isPoint _ _) := by
  refine ((says_readLengthPrefixedFrame _).adapt _).bind fun _ =>
    (says_request rfl).bind fun payload => ?_
  split
  · exact .fail _
  · exact .require _ _

theorem says_runFlights (role : Role) : Says (Within S) (runFlights role : Ceremony Key isPoint _ _) := by
  cases role with
  | initiator =>
    exact (says_sendFlight).bind fun _ => (says_receiveFlight).bind fun _ =>
      says_sendFlight
  | responder =>
    exact (says_receiveFlight).bind fun _ => (says_sendFlight).bind fun _ =>
      says_receiveFlight

theorem says_runXxHandshake (role : Role) :
    Says (Within S) (runXxHandshake role : Ceremony Key isPoint _ _) :=
  (says_request rfl).bind fun _ => .require_bind <|
    (says_runFlights role).bind fun _ => (says_request rfl).bind fun _ =>
    .require_bind <| (says_request rfl).bind fun _ =>
    (says_request rfl).bind fun _ => .require_bind <| .pure _

theorem says_notable {ε : Type} {q : Request Key isPoint} {n : Notable} (hq : q.notable = some n)
    (hn : n ∈ S) : Says (Within S) (request q : Ceremony Key isPoint ε (Answer q)) :=
  .query fun _ _ h => Option.some.inj (hq.symm.trans h) ▸ hn

theorem says_sendPlaintext {plaintext : List UInt8} (h : .record plaintext.head? ∈ S) :
    Says (Within S) (sendPlaintext plaintext : Ceremony Key isPoint _ _) := by
  refine (says_notable rfl h).bind fun ciphertext => ?_
  split
  · exact .fail _
  · exact (says_writeLengthPrefixedFrame _ _).adapt _

theorem says_receivePlaintext : Says (Within S) (receivePlaintext : Ceremony Key isPoint _ _) := by
  refine ((says_readLengthPrefixedFrame _).adapt _).bind fun _ =>
    (says_request rfl).bind fun plaintext => ?_
  split
  · exact .fail _
  · exact .pure _

end

section

variable {Key : Type} {c : Crypto Key} {F : Formats c.isPoint} {inputs : CeremonyInputs c.isPoint}
  {S : List Notable}

theorem says_sendFrame {frame : AuthFrame c.isPoint} (h : .record (some frame.typeByte) ∈ S) :
    Says (Within S) (sendFrame c F frame) := by
  refine .lift_bind fun plaintext hplaintext => says_sendPlaintext ?_
  simp only [encodeAuthFrame, eq_ok_iff, encodeTypedFrame_eq_ok] at hplaintext
  obtain ⟨body, _, _, rfl⟩ := hplaintext
  exact h

theorem says_recvFrame : Says (Within S) (recvFrame c F) :=
  says_receivePlaintext.bind fun _ => .lift _

theorem says_checkCeremonyDeadline : Says (Within S) (checkCeremonyDeadline c) :=
  (says_request rfl).bind fun _ => .require _ _

theorem says_clockNow (h : .clock ∈ S) : Says (Within S) (clockNow c) :=
  (says_notable rfl h).bind fun _ => .lift _

theorem says_digest (h : .digest ∈ S) (input : List UInt8) : Says (Within S) (digest c input) :=
  (says_notable rfl h).bind fun _ => .pure _

theorem says_verifySignature (key : Key) (message : List UInt8) (signature : SignatureBytes)
    (e : AuthFrameError) : Says (Within S) (verifySignature c key message signature e) :=
  (says_request rfl).bind fun _ => .require _ _

theorem says_signFrame (frame : AuthFrame c.isPoint) : Says (Within S) (signFrame c F frame) :=
  .lift_bind fun _ _ => (says_request rfl).bind fun _ => .lift_bind fun _ _ =>
    .lift_bind fun _ _ => (says_request rfl).bind fun _ =>
    (says_verifySignature _ _ _ _).bind fun _ => .pure _

theorem says_verifyFrame (frame : AuthFrame c.isPoint) (sig : List UInt8) (key : Key) :
    Says (Within S) (verifyFrame c F frame sig key) :=
  .lift_bind fun _ _ => .lift_bind fun _ _ => .lift_bind fun _ _ =>
    says_verifySignature _ _ _ _

theorem says_verifyIntentRecord (intent : SignedMeshConnectionIntent) (key : Key) :
    Says (Within S) (verifyIntentRecord c F intent key) :=
  .lift_bind fun _ _ => .lift_bind fun _ _ => .lift_bind fun _ _ =>
    says_verifySignature _ _ _ _

theorem says_frameDigest (h : .digest ∈ S) (frame : AuthFrame c.isPoint) :
    Says (Within S) (frameDigest c F frame) :=
  .lift_bind fun _ _ => says_digest h _

theorem says_passDelegationGate (delegation : MeshSessionDelegation c.isPoint)
    (policy : DelegationPolicy) (ctx : PartialBindingInputs) (channel : ExpectedChannel) :
    Says (Within S) (passDelegationGate c delegation policy ctx channel) :=
  .lift_bind fun _ _ => (says_request rfl).bind fun _ => .lift_bind fun _ _ =>
    .require_bind <| .require_bind <|
    .require_bind <| .lift _

theorem says_openCeremony (role : Role) : Says (Within S) (openCeremony c inputs role) :=
  says_checkCeremonyDeadline.bind fun _ =>
    ((says_request rfl).bind fun _ => .lift_bind fun _ _ => (says_request rfl).bind fun _ =>
      .lift_bind fun _ _ => .pure _).bind fun _ =>
    ((says_runXxHandshake role).adapt _).bind fun _ =>
    says_checkCeremonyDeadline.bind fun _ => .pure _

theorem says_sendProofR (h : .record (some typeProofR) ∈ S) (hFinal : List UInt8) :
    Says (Within S) (sendProofR c F inputs hFinal) :=
  .lift_bind fun _ _ => (says_signFrame _).bind fun _ => says_sendFrame h

theorem says_awaitIntent (h : .digest ∈ S) : Says (Within S) (awaitIntent c F) :=
  (says_receivePlaintext.bind fun _ => .lift _).bind fun _ =>
    (Says.lift_bind fun _ _ => says_digest h _).bind fun _ =>
    says_checkCeremonyDeadline.bind fun _ => .pure _

theorem says_awaitProofI (hFinal : List UInt8) : Says (Within S) (awaitProofI c F inputs hFinal) := by
  refine says_recvFrame.bind fun frame => ?_
  cases frame with
  | proofI proofI =>
    exact .require_bind <| .require_bind <|
      .require_bind <| (says_passDelegationGate _ _ _ _).bind fun _ =>
      says_checkCeremonyDeadline.bind fun _ => (says_request rfl).bind fun _ =>
      .lift_bind fun _ _ => .require_bind <| .lift_bind fun _ _ =>
      (says_verifyFrame _ _ _).bind fun _ => .pure _
  | _ => exact .fail _

theorem says_runCombinedIntentCheck (intent : SignedMeshConnectionIntent)
    (received : Vector UInt8 32) (proofI : ProofI c.isPoint) (verifier : Key) (now : UInt64) :
    Says (Within S) (runCombinedIntentCheck c F inputs intent received proofI verifier now) :=
  (says_verifyIntentRecord _ _).bind fun _ => .require_bind <|
    .require_bind <| .require_bind <|
    .require_bind <| .require_bind <|
    .lift_bind fun _ _ => .pure _

theorem says_acceptInitiator (hdigest : .digest ∈ S) (hclock : .clock ∈ S) (hFinal : List UInt8) :
    Says (Within S) (acceptInitiator c F inputs hFinal) :=
  (says_awaitIntent hdigest).bind fun _ => (says_awaitProofI _).bind fun _ =>
    (says_clockNow hclock).bind fun _ => (says_runCombinedIntentCheck _ _ _ _ _).bind fun _ =>
    says_checkCeremonyDeadline.bind fun _ => .pure _

/-- Before the nonce is consumed, the responder writes its proof only. -/
theorem says_meetInitiator :
    Says (Within [.record (some typeProofR), .digest, .clock]) (meetInitiator c F inputs) :=
  ((says_request rfl).bind fun _ => .require _ _).bind fun _ => .require_bind <|
    (says_openCeremony _).bind fun _ => (says_sendProofR (by simp) _).bind fun _ =>
    (says_acceptInitiator (by simp) (by simp) _).bind fun _ => .pure _

theorem says_confirmInitiator (hrecord : .record (some typeFinalConfirm) ∈ S)
    (hdigest : .digest ∈ S) (hFinal : List UInt8) (accepted : AcceptedInitiator Key c.isPoint) :
    Says (Within S) (confirmInitiator c F inputs hFinal accepted) := by
  refine says_checkCeremonyDeadline.bind fun _ => .lift_bind fun _ _ =>
    (says_signFrame _).bind fun _ => (says_sendFrame hrecord).bind fun _ =>
    says_checkCeremonyDeadline.bind fun _ => says_recvFrame.bind fun frame => ?_
  cases frame with
  | activate activate =>
    exact .require_bind <| .require_bind <|
      (says_frameDigest hdigest _).bind fun _ => .require_bind <|
      (says_verifyFrame _ _ _).bind fun _ => says_checkCeremonyDeadline.bind fun _ => .pure _
  | _ => exact .fail _

theorem says_prepareAck (hdigest : .digest ∈ S) (hclock : .clock ∈ S) (hFinal : List UInt8)
    (activate : Activate) (expiresAt : UInt64) :
    Says (Within S) (prepareAck c F inputs hFinal activate expiresAt) :=
  (says_frameDigest hdigest _).bind fun _ => .lift_bind fun _ _ =>
    (says_signFrame _).bind fun _ => (says_clockNow hclock).bind fun _ =>
    .require_bind <| .pure _

theorem says_admitAround (h : .admission ∈ S) {key : D1MembershipKey}
    {exchange : AuthCeremony c Unit} (hx : Says (Within S) exchange) :
    Says (Within S) (admitAround c key exchange) := by
  refine (says_notable rfl h).bind fun _ => .lift_bind fun _ _ =>
    hx.attempt.bind fun outcome => ?_
  cases outcome with
  | ok _ => exact (says_notable rfl h).bind fun _ => .pure _
  | error _ => exact (says_notable rfl h).bind fun _ => .fail _

/-- After the nonce was consumed, the responder writes its confirmation and acknowledgement
only. -/
theorem says_completeResponder (handshaken : Handshaken) (a : AcceptedInitiator Key c.isPoint) :
    Says (Within [.record (some typeFinalConfirm), .record (some typeActivateAck), .digest, .clock,
      .admission]) (completeResponder c F inputs handshaken a) :=
  (says_confirmInitiator (by simp) (by simp) _ _).bind fun _ =>
    (says_prepareAck (by simp) (by simp) _ _ _).bind fun _ =>
    (says_admitAround (by simp) (says_sendFrame (by simp [AuthFrame.typeByte]))).bind fun _ =>
    .pure _

variable {pendingIntent : PendingIntent}

theorem says_verifyBindsTo (h : .digest ∈ S) :
    Says (Within S) (verifyBindsTo c F inputs pendingIntent) :=
  (says_request rfl).bind fun _ => .require_bind <| .require_bind <|
    (Says.lift_bind fun _ _ => says_digest h _).bind fun _ => .require_bind <|
    .require_bind <| .require _ _

theorem says_awaitProofR (hFinal : List UInt8) :
    Says (Within S) (awaitProofR c F inputs pendingIntent hFinal) := by
  refine says_recvFrame.bind fun frame => ?_
  cases frame with
  | proofR proofR =>
    exact .require_bind <| .require_bind <|
      .require_bind <| (says_passDelegationGate _ _ _ _).bind fun _ =>
      .lift_bind fun _ _ => (says_verifyFrame _ _ _).bind fun _ => .pure _
  | _ => exact .fail _

theorem says_acceptResponder (h : .clock ∈ S) (hFinal : List UInt8) :
    Says (Within S) (acceptResponder c F inputs pendingIntent hFinal) :=
  (says_awaitProofR _).bind fun _ => (says_clockNow h).bind fun _ =>
    .require_bind <| .pure _

theorem says_sendIntentAndProofI (hintent : .record (some intentTypeByte) ∈ S)
    (hproof : .record (some typeProofI) ∈ S) (hdigest : .digest ∈ S) (hFinal : List UInt8) :
    Says (Within S) (sendIntentAndProofI c F inputs pendingIntent hFinal) := by
  refine (Says.lift_bind fun plaintext hplaintext => says_sendPlaintext ?_).bind fun _ =>
    (Says.lift_bind fun _ _ => says_digest hdigest _).bind fun _ =>
    says_checkCeremonyDeadline.bind fun _ => .lift_bind fun _ _ =>
    (says_signFrame _).bind fun _ => (says_sendFrame hproof).bind fun _ =>
    says_checkCeremonyDeadline
  simp only [encodeIntentRecord, eq_ok_iff, encodeTypedFrame_eq_ok] at hplaintext
  obtain ⟨body, _, _, rfl⟩ := hplaintext
  exact hintent

theorem says_awaitFinalConfirm (hFinal : List UInt8) (verifier : Key) :
    Says (Within S) (awaitFinalConfirm c F inputs pendingIntent hFinal verifier) := by
  refine says_recvFrame.bind fun frame => ?_
  cases frame with
  | finalConfirm finalConfirm =>
    exact .require_bind <| .require_bind <|
      (says_verifyFrame _ _ _).bind fun _ => says_checkCeremonyDeadline.bind fun _ => .pure _
  | _ => exact .fail _

theorem says_prepareActivate (hdigest : .digest ∈ S) (hclock : .clock ∈ S) (hFinal : List UInt8)
    (finalConfirm : FinalConfirm) (expiresAt : UInt64) :
    Says (Within S) (prepareActivate c F pendingIntent hFinal finalConfirm expiresAt) :=
  (says_frameDigest hdigest _).bind fun _ => .lift_bind fun _ _ =>
    (says_signFrame _).bind fun _ => (says_clockNow hclock).bind fun _ =>
    .require_bind <| .pure _

/-- Before the admission is reserved, the initiator writes its intent and its proof only. -/
theorem says_meetResponder :
    Says (Within [.record (some intentTypeByte), .record (some typeProofI), .digest, .clock])
      (meetResponder c F inputs pendingIntent) :=
  ((says_request rfl).bind fun _ => .require _ _).bind fun _ => .require_bind <|
    (says_verifyBindsTo (by simp)).bind fun _ => (says_openCeremony _).bind fun _ =>
    (says_acceptResponder (by simp) _).bind fun _ =>
    (says_sendIntentAndProofI (by simp) (by simp) (by simp) _).bind fun _ =>
    (says_awaitFinalConfirm _ _).bind fun _ =>
    (says_prepareActivate (by simp) (by simp) _ _ _).bind fun _ => .pure _

theorem says_exchangeAck (hFinal : List UInt8) (activate : Activate) (verifier : Key) :
    Says (Within [.record (some typeActivate), .digest])
      (exchangeAck c F pendingIntent hFinal activate verifier) := by
  refine (says_sendFrame (by simp [AuthFrame.typeByte])).bind fun _ =>
    says_recvFrame.bind fun frame => ?_
  cases frame with
  | activateAck activateAck =>
    exact .require_bind <| .require_bind <|
      (says_frameDigest (by simp) _).bind fun _ => .require_bind <|
      says_verifyFrame _ _ _
  | _ => exact .fail _

end

end Theyos.MeshSession

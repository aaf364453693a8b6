import Theyos.Models.MeshSession.Ceremony.Discipline

/-!
# Who a responder's session is with

Any number of ceremonies run at once, and an adversary answers for the network and decides how
their exchanges interleave. A history lists what happened: the exchanges of every ceremony, the
messages the holders of keys signed, and the inputs hashed elsewhere.
-/

namespace Theyos.MeshSession

open Machine Dialogue

/-- What happens anywhere in a system of ceremonies. -/
inductive SystemEvent (ι Key : Type) (isPoint : List UInt8 → Bool) where
  /-- A ceremony asked and was answered. -/
  | exchange (s : ι) (e : Exchange (@Answer Key isPoint))
  /-- The holder of a key signed a message. -/
  | signs (key : Key) (message : List UInt8)
  /-- Someone hashed an input outside the ceremonies. -/
  | hashes (input : List UInt8)

/-- Everything that happened, the latest last. -/
abbrev SystemHistory (ι Key : Type) (isPoint : List UInt8 → Bool) : Type :=
  List (SystemEvent ι Key isPoint)

section

variable {ι Key : Type} {isPoint : List UInt8 → Bool}

/-- The exchange an event is in a ceremony. -/
def exchangeOf [DecidableEq ι] (s : ι) :
    SystemEvent ι Key isPoint → Option (Exchange (@Answer Key isPoint))
  | .exchange s' e => if s' = s then some e else none
  | _ => none

/-- The exchanges of one ceremony. -/
def transcriptOf [DecidableEq ι] (h : SystemHistory ι Key isPoint) (s : ι) :
    CeremonyTranscript Key isPoint :=
  h.filterMap (exchangeOf s)

theorem mem_transcriptOf [DecidableEq ι] {h : SystemHistory ι Key isPoint} {s : ι}
    {e : Exchange (@Answer Key isPoint)} : e ∈ transcriptOf h s ↔ .exchange s e ∈ h := by
  rw [transcriptOf, List.mem_filterMap]
  constructor
  · rintro ⟨_ | _ | _, hmem, heq⟩
    · simp only [exchangeOf, Option.ite_none_right_eq_some, Option.some.injEq] at heq
      obtain ⟨rfl, rfl⟩ := heq
      exact hmem
    · cases heq
    · cases heq
  · exact fun hmem => ⟨_, hmem, by simp [exchangeOf]⟩

/-- The nonce an exchange commits. -/
def committedNonce : Exchange (@Answer Key isPoint) → Option IntentNonceKey
  | ⟨.consume key _ _ _, .ok .committed⟩ => some key
  | _ => none

/-- The nonce an event commits. -/
def SystemEvent.committedNonce : SystemEvent ι Key isPoint → Option IntentNonceKey
  | .exchange _ e => MeshSession.committedNonce e
  | _ => none

/-- The nonces a ceremony committed. -/
def committedNonces (w : CeremonyTranscript Key isPoint) : List IntentNonceKey :=
  w.filterMap committedNonce

/-- The input was hashed, in a ceremony or elsewhere. -/
def Hashed (h : SystemHistory ι Key isPoint) (input : List UInt8) : Prop :=
  .hashes input ∈ h ∨ ∃ s, .exchange s ⟨.sha256 input, ()⟩ ∈ h

end

/-- What is assumed of the signature scheme, the hash and the nonce ledger. -/
structure Idealized {ι Key : Type} (c : Crypto Key) (h : SystemHistory ι Key c.isPoint) : Prop where
  /-- A signature that verifies was made before by the holder of the key. -/
  signed : ∀ before after s key message signature,
    h = before ++ .exchange s ⟨.verify key message signature, ()⟩ :: after →
    c.verify key message signature = true → .signs key message ∈ before
  collisionFree : ∀ input input', Hashed h input → Hashed h input' →
    c.sha256 input = c.sha256 input' → input = input'
  /-- The ledger commits a nonce at most once. -/
  singleUse : (h.filterMap SystemEvent.committedNonce).Nodup

section

variable {ι Key : Type} {c : Crypto Key} (F : Formats c.isPoint) (h : SystemHistory ι Key c.isPoint)

/-- The holder of the key signed this body, and the message it signed stands for no other. -/
def HolderSigned (key : Key) (body : SignedBody c.isPoint) : Prop :=
  ∃ message, .signs key message ∈ h ∧ body.preimage F = .ok message ∧
    ∀ other : SignedBody c.isPoint, other.preimage F = .ok message → SameButSig body other

/-- The digest is the one of this value and of no other that was hashed. -/
def CommitsTo {α : Type} (digestInput : α → Except CborError (List UInt8)) (d : List UInt8)
    (a : α) : Prop :=
  ∃ input, digestInput a = .ok input ∧ (c.sha256 input).toList = d ∧
    ∀ other input', digestInput other = .ok input' → Hashed h input' →
      (c.sha256 input').toList = d → other = a

def CommitsToIntent : List UInt8 → SignedMeshConnectionIntent → Prop :=
  CommitsTo h (intentDigestInput F)

def CommitsToFrame : List UInt8 → AuthFrame c.isPoint → Prop :=
  CommitsTo h (AuthFrame.digestInput F)

variable [DecidableEq ι]

/-- The responder of a ceremony returned an active session. -/
def ResponderActive (s : ι) (inputs : CeremonyInputs c.isPoint) (session : ActiveMeshSession) :
    Prop :=
  Yields (runResponderHandshake c F inputs) (.ok session) (transcriptOf h s)

/-- The initiator behind a responder's session took part in this very ceremony. -/
structure InitiatorAuthentic (s : ι) (inputs : CeremonyInputs c.isPoint)
    (session : ActiveMeshSession) (key : Key) (proofI : ProofI c.isPoint)
    (intent : SignedMeshConnectionIntent) (finalConfirm : FinalConfirm) (activate : Activate) :
    Prop where
  /-- The transcript hash is the one of this ceremony's Noise handshake. -/
  hFinal : ⟨.getHandshakeHash, session.hFinal⟩ ∈ transcriptOf h s
  /-- The key is the one the resolver returned for the peer. -/
  resolved : ∃ resolved : ResolvedSignerAuthority,
    ⟨.resolve session.peerHhId session.peerMId inputs.expectedChannel
      proofI.1.delegation.1.delegatedKeyId, .ok resolved⟩ ∈ transcriptOf h s ∧
    c.fromSec1Bytes resolved.delegatedPub = some key
  proof_signed : HolderSigned F h key (.frame (.proofI proofI))
  proof_hFinal : proofI.1.hFinal = session.hFinal
  /-- The proof comes from the peer of the session. -/
  proof_peer : proofI.1.hhId = session.peerHhId ∧ proofI.1.selfMId = session.peerMId ∧
    proofI.1.selfCertFingerprint = session.peerCertFingerprint
  /-- The proof names this machine. -/
  proof_names : proofI.1.expectedPeerMId = inputs.localIdentity.mId ∧
    proofI.1.expectedPeerCertFingerprint = inputs.localIdentity.certFingerprint
  proof_commits : CommitsToIntent F h proofI.1.connectionIntentDigest.toList intent
  intent_peer : intent.1.hhId = session.peerHhId ∧ intent.1.initiatorMId = session.peerMId ∧
    intent.1.initiatorCertFingerprint = session.peerCertFingerprint
  /-- The intent is for this machine. -/
  intent_target : intent.1.targetMId = inputs.localIdentity.mId ∧
    intent.1.targetCertFingerprint = inputs.localIdentity.certFingerprint
  intent_signed : HolderSigned F h key (.intent intent)
  /-- The confirmation was sent in this ceremony. -/
  confirm_sent : ∃ w₁ w₂ w₃, transcriptOf h s = w₁ ++ w₂ ++ w₃ ∧
    RecordWritten F (.finalConfirm finalConfirm) w₂
  confirm_hFinal : finalConfirm.1.hFinal = session.hFinal
  activate_signed : HolderSigned F h key (.frame (.activate activate))
  activate_hFinal : activate.1.hFinal = session.hFinal
  activate_commits : CommitsToFrame F h activate.1.finalConfirmDigest (.finalConfirm finalConfirm)
  /-- The nonce of the intent is the only one the ceremony committed. -/
  nonce : ∃ nonce : Vector UInt8 32, nonce.toList = intent.1.nonce ∧
    committedNonces (transcriptOf h s) =
      [⟨intent.1.hhId, intent.1.initiatorMId, intent.1.delegatedKeyId, nonce⟩]

end

section

variable {ι Key : Type} [DecidableEq ι] {c : Crypto Key} {F : Formats c.isPoint} {limit : ℕ∞}
  {h : SystemHistory ι Key c.isPoint} {s : ι} (hF : F.Lawful limit) (hh : Idealized c h)

include hF hh

/-- What a ceremony verified was signed by the holder of the key. -/
theorem Verified.holderSigned {key : Key} {body : SignedBody c.isPoint}
    (hverified : Verified c F (transcriptOf h s) key body) : HolderSigned F h key body := by
  obtain ⟨message, signature, hmessage, hmem, hverify⟩ := hverified
  obtain ⟨before, after, hsplit⟩ := List.append_of_mem (mem_transcriptOf.mp hmem)
  have hsigned := hh.signed before after s key message signature hsplit hverify
  refine ⟨message, by simp [hsplit, hsigned], hmessage, fun other hother => ?_⟩
  obtain ⟨body₁, hbody₁, rfl⟩ := SignedBody.preimage_eq_ok.mp hmessage
  obtain ⟨body₂, hbody₂, heq⟩ := SignedBody.preimage_eq_ok.mp hother
  obtain ⟨htype, rfl⟩ := List.cons.inj heq
  exact SignedBody.unsignedBody_inj hF htype.symm hbody₁ hbody₂

omit [DecidableEq ι] hF in
theorem Idealized.input_eq {input input' : List UInt8} (hinput : Hashed h input)
    (hinput' : Hashed h input') {d : List UInt8} (hd : (c.sha256 input).toList = d)
    (hd' : (c.sha256 input').toList = d) : input' = input :=
  hh.collisionFree _ _ hinput' hinput (Vector.toList_inj.mp (hd'.trans hd.symm))

omit hF in
theorem Digested.commitsTo {α : Type} {digestInput : α → Except CborError (List UInt8)}
    (hinj : ∀ {a b input}, digestInput a = .ok input → digestInput b = .ok input → a = b) {a : α}
    {input : List UInt8} {d : Vector UInt8 32} (hinput : digestInput a = .ok input)
    (hdigested : Digested c (transcriptOf h s) input d) : CommitsTo h digestInput d.toList a := by
  obtain ⟨hmem, rfl⟩ := hdigested
  refine ⟨input, hinput, rfl, fun other input' hother hhashed hd => ?_⟩
  obtain rfl := hh.input_eq (.inr ⟨s, mem_transcriptOf.mp hmem⟩) hhashed rfl hd
  exact hinj hother hinput

end

section

variable {Key : Type} {c : Crypto Key} {F : Formats c.isPoint} {inputs : CeremonyInputs c.isPoint}
  {w : c.Transcript}

theorem committedNonces_filter (w : c.Transcript) :
    committedNonces (w.filter isConsume) = committedNonces w := by
  rw [committedNonces, List.filterMap_filter]
  refine List.filterMap_congr fun e _ => ?_
  obtain ⟨q, a⟩ := e
  cases q <;> rfl

/-- A run that returns a session commits the one nonce of its intent. -/
theorem ResponderRun.committedNonces_eq {session : ActiveMeshSession}
    (run : ResponderRun c F inputs session w) (honce : (w.filter isConsume).length ≤ 1) :
    committedNonces w = [run.accepted.nonceKey] := by
  have hmem : ⟨.consume run.accepted.nonceKey run.accepted.intent.1.notAfter
      run.accepted.intentDigest inputs.expectedChannel, .ok .committed⟩ ∈ w.filter isConsume := by
    exact List.mem_filter.mpr ⟨mem_of_split run.transcript_eq, rfl⟩
  obtain ⟨e, he⟩ := List.length_eq_one_iff.mp (le_antisymm honce (List.length_pos_of_mem hmem))
  rw [he, List.mem_singleton] at hmem
  rw [← committedNonces_filter, he, ← hmem]
  rfl

end

section

variable {ι Key : Type} [DecidableEq ι] {c : Crypto Key} {F : Formats c.isPoint} {limit : ℕ∞}
  {h : SystemHistory ι Key c.isPoint} {s s' : ι} {inputs inputs' : CeremonyInputs c.isPoint}
  {session session' : ActiveMeshSession}

theorem ResponderActive.initiatorAuthentic (hF : F.Lawful limit) (hh : Idealized c h)
    (hactive : ResponderActive F h s inputs session) :
    ∃ key proofI intent finalConfirm activate,
      InitiatorAuthentic F h s inputs session key proofI intent finalConfirm activate := by
  obtain ⟨run⟩ := runResponderHandshake_ok hactive
  obtain ⟨hhash, haccepted⟩ := meetInitiator_ok (run.met_yields.ran run.met_infix)
  have hactivate := confirmInitiator_ok (run.confirmed_yields.ran run.confirmed_infix)
  obtain ⟨now, -, hintent⟩ := haccepted.intent
  obtain ⟨input, hinput, hdigested⟩ := haccepted.intent_digested
  obtain ⟨confirmInput, d, hconfirmInput, hconfirmDigested, hd⟩ := hactivate.digest_eq
  obtain ⟨resolved, hresolved, -, hkey⟩ := haccepted.proof.resolved
  obtain ⟨hhhId, hmId, hkeyId, hnonce⟩ := hintent.nonceKey_eq
  refine ⟨run.accepted.verifier, run.accepted.proofI, run.accepted.intent, run.finalConfirm,
    run.activate, ?_⟩
  suffices hsuffices : ∀ session', session' = responderSession c inputs run.handshaken run.accepted →
      InitiatorAuthentic F h s inputs session' run.accepted.verifier run.accepted.proofI
        run.accepted.intent run.finalConfirm run.activate from hsuffices session run.session_eq
  rintro _ rfl
  exact {
    hFinal := hhash
    resolved := ⟨resolved, hresolved, hkey⟩
    proof_signed := haccepted.proof.verified.holderSigned hF hh
    proof_hFinal := haccepted.proof.hFinal_eq
    proof_peer := ⟨rfl, rfl, rfl⟩
    proof_names := haccepted.proof.peer_eq
    proof_commits := by
      rw [hintent.digest_eq]
      exact hdigested.commitsTo hh (intentDigestInput_inj hF) hinput
    intent_peer := hintent.initiator_eq
    intent_target := hintent.target_eq
    intent_signed := hintent.verified.holderSigned hF hh
    confirm_sent := hactivate.sent
    confirm_hFinal := hactivate.confirms.1
    activate_signed := hactivate.verified.holderSigned hF hh
    activate_hFinal := hactivate.hFinal_eq
    activate_commits := by
      rw [hd]
      exact hconfirmDigested.commitsTo hh (AuthFrame.digestInput_inj hF) hconfirmInput
    nonce := by
      refine ⟨run.accepted.nonceKey.nonce, hnonce, ?_⟩
      rw [run.committedNonces_eq (runResponderHandshake_discipline hactive).consume_once, ← hhhId,
        ← hmId, ← hkeyId] }

/-- Ceremonies that committed a common nonce are the same. -/
theorem Idealized.eq_of_committedNonces (hh : Idealized c h) {key : IntentNonceKey}
    (hkey : key ∈ committedNonces (transcriptOf h s))
    (hkey' : key ∈ committedNonces (transcriptOf h s')) : s = s' := by
  obtain ⟨e, he, hcommitted⟩ := List.mem_filterMap.mp hkey
  obtain ⟨e', he', hcommitted'⟩ := List.mem_filterMap.mp hkey'
  have heq := eq_of_nodup_filterMap hh.singleUse (mem_transcriptOf.mp he)
    (mem_transcriptOf.mp he') hcommitted hcommitted'
  exact (SystemEvent.exchange.inj heq).1

/-- Whatever the network does, the responder behind an initiator's session confirmed that very
ceremony with that initiator, and acknowledged its activation. -/
theorem initiator_authenticates_responder {pendingIntent : PendingIntent} (hF : F.Lawful limit)
    (hh : Idealized c h) (hactive : Yields (runInitiatorHandshake c F inputs pendingIntent)
      (.ok session) (transcriptOf h s)) :
    ⟨.getHandshakeHash, session.hFinal⟩ ∈ transcriptOf h s ∧
    ∃ a finalConfirm activate activateAck,
      ResponderAccepted F inputs pendingIntent session.hFinal a (transcriptOf h s) ∧
      ConfirmAccepted F inputs pendingIntent session.hFinal a.verifier finalConfirm
        (transcriptOf h s) ∧
      AckAccepted F pendingIntent session.hFinal activate a.verifier activateAck
        (transcriptOf h s) ∧
      (∀ frame ∈ [.proofR a.proofR, .finalConfirm finalConfirm, .activateAck activateAck],
        HolderSigned F h a.verifier (.frame frame)) ∧
      CommitsToFrame F h activateAck.1.activateDigest (.activate activate) ∧
      CommitsToFrame F h activate.1.finalConfirmDigest (.finalConfirm finalConfirm) := by
  obtain ⟨run⟩ := runInitiatorHandshake_ok hactive
  have hbefore : run.beforeCommit <:+: transcriptOf h s := ⟨[], _, run.transcript_split.symm⟩
  have hmet := run.met_yields.ran ((List.prefix_append _ _).isInfix.trans hbefore)
  obtain ⟨-, hhash, haccepted⟩ := meetResponder_ok hmet
  obtain ⟨-, -, -, finalConfirm, hawaited, hprepared⟩ := meetResponder_parts hmet
  have hconfirm := awaitFinalConfirm_ok hawaited
  obtain ⟨confirmInput, d', hconfirmInput, hconfirmDigested, hd'⟩ := prepareActivate_ok hprepared
  obtain ⟨activateAck, hack⟩ := exchangeAck_ok
    (run.exchanged_yields.ran (run.exchanged_infix.trans hbefore))
  obtain ⟨input, d, hinput, hdigested, hd⟩ := hack.digest_eq
  rw [run.session_eq]
  refine ⟨hhash, run.accepted, finalConfirm, run.activate, activateAck, haccepted, hconfirm, hack,
    ?_, hd ▸ hdigested.commitsTo hh (AuthFrame.digestInput_inj hF) hinput,
    hd' ▸ hconfirmDigested.commitsTo hh (AuthFrame.digestInput_inj hF) hconfirmInput⟩
  simp [haccepted.verified.holderSigned hF hh, hconfirm.verified.holderSigned hF hh,
    hack.verified.holderSigned hF hh]

end

/-- Whatever the network does among any number of ceremonies, the initiator behind a responder's
session took part in that very ceremony, and no two ceremonies of responders become active with
one nonce. -/
theorem responder_authenticates_initiator {ι Key : Type} [DecidableEq ι] {c : Crypto Key}
    {F : Formats c.isPoint} {limit : ℕ∞} (hF : F.Lawful limit)
    (h : SystemHistory ι Key c.isPoint) (hh : Idealized c h) :
    (∀ s inputs session, ResponderActive F h s inputs session →
      ∃ key proofI intent finalConfirm activate,
        InitiatorAuthentic F h s inputs session key proofI intent finalConfirm activate) ∧
    ∀ s s' inputs inputs' session session', ResponderActive F h s inputs session →
      ResponderActive F h s' inputs' session' →
      committedNonces (transcriptOf h s) = committedNonces (transcriptOf h s') → s = s' := by
  refine ⟨fun _ _ _ hactive => hactive.initiatorAuthentic hF hh, ?_⟩
  intro s s' inputs inputs' session session' hactive hactive' heq
  obtain ⟨_, _, _, _, _, hauthentic⟩ := hactive.initiatorAuthentic hF hh
  obtain ⟨nonce, -, hcommitted⟩ := hauthentic.nonce
  exact hh.eq_of_committedNonces (hcommitted ▸ List.mem_singleton_self _)
    (heq ▸ hcommitted ▸ List.mem_singleton_self _)

section

/-- What is signed for a signature that is verified. -/
def verifiedMessage {Key : Type} {isPoint : List UInt8 → Bool} :
    Exchange (@Answer Key isPoint) → Option (SystemEvent Unit Key isPoint)
  | ⟨.verify key message _, _⟩ => some (.signs key message)
  | _ => none

/-- One ceremony, after everything it verifies was signed. -/
def signedAhead {Key : Type} {isPoint : List UInt8 → Bool} (w : CeremonyTranscript Key isPoint) :
    SystemHistory Unit Key isPoint :=
  w.filterMap verifiedMessage ++ w.map (.exchange ())

variable {Key : Type} {isPoint : List UInt8 → Bool} {w : CeremonyTranscript Key isPoint}

theorem signs_of_mem_signed {x : SystemEvent Unit Key isPoint}
    (h : x ∈ w.filterMap verifiedMessage) : ∃ key message, x = .signs key message := by
  obtain ⟨⟨q, a⟩, _, he⟩ := List.mem_filterMap.mp h
  cases q with
  | verify key message signature => exact ⟨key, message, (Option.some.inj he).symm⟩
  | _ => cases he

theorem transcriptOf_signedAhead : transcriptOf (signedAhead w) () = w := by
  have hsigned : (w.filterMap verifiedMessage).filterMap (exchangeOf ()) = [] :=
    List.filterMap_eq_nil_iff.mpr fun x hx => by
      obtain ⟨key, message, rfl⟩ := signs_of_mem_signed hx
      rfl
  rw [transcriptOf, signedAhead, List.filterMap_append, hsigned, List.nil_append,
    List.filterMap_map]
  exact List.filterMap_some

theorem mem_of_hashed {input : List UInt8} (h : Hashed (signedAhead w) input) :
    ⟨.sha256 input, ()⟩ ∈ w := by
  rcases h with hhashes | ⟨s, hexchange⟩
  · rcases List.mem_append.mp hhashes with hmem | hmem
    · obtain ⟨key, message, heq⟩ := signs_of_mem_signed hmem
      cases heq
    · obtain ⟨_, _, heq⟩ := List.mem_map.mp hmem
      cases heq
  · rw [← @transcriptOf_signedAhead _ _ w]
    exact mem_transcriptOf.mpr hexchange

theorem signed_signedAhead {before after : SystemHistory Unit Key isPoint} {s : Unit}
    {key : Key} {message : List UInt8} {signature : SignatureBytes}
    (h : signedAhead w = before ++ .exchange s ⟨.verify key message signature, ()⟩ :: after) :
    .signs key message ∈ before := by
  have hmem : ⟨.verify key message signature, ()⟩ ∈ w := by
    rw [← @transcriptOf_signedAhead _ _ w, mem_transcriptOf]
    exact mem_of_split h
  have hsigned : .signs key message ∈ w.filterMap verifiedMessage :=
    List.mem_filterMap.mpr ⟨_, hmem, rfl⟩
  rcases List.append_eq_append_iff.mp h with ⟨mid, rfl, _⟩ | ⟨mid, hsplit, hmid⟩
  · exact List.mem_append_left _ hsigned
  · cases mid with
    | nil =>
      rw [List.append_nil] at hsplit
      exact hsplit ▸ hsigned
    | cons x mid =>
      obtain ⟨rfl, _⟩ := List.cons.inj hmid
      obtain ⟨_, _, heq⟩ := signs_of_mem_signed (mem_of_split hsplit)
      cases heq

/-- One run of a responder, after everything it verifies was signed, is ideal when its hash
inputs do not collide. -/
theorem idealized_signedAhead {c : Crypto Key} {F : Formats c.isPoint}
    {inputs : CeremonyInputs c.isPoint} {w : c.Transcript}
    {session : ActiveMeshSession} (h : Yields (runResponderHandshake c F inputs) (.ok session) w)
    (hhash : ∀ input input', ⟨.sha256 input, ()⟩ ∈ w → ⟨.sha256 input', ()⟩ ∈ w →
      c.sha256 input = c.sha256 input' → input = input') : Idealized c (signedAhead w) where
  signed _ _ _ _ _ _ hsplit _ := signed_signedAhead hsplit
  collisionFree _ _ hinput hinput' := hhash _ _ (mem_of_hashed hinput) (mem_of_hashed hinput')
  singleUse := by
    obtain ⟨run⟩ := runResponderHandshake_ok h
    have hexchanges : (signedAhead w).filterMap SystemEvent.committedNonce =
        committedNonces (transcriptOf (signedAhead w) ()) := by
      rw [committedNonces, transcriptOf, List.filterMap_filterMap]
      exact List.filterMap_congr fun x _ => by cases x <;> rfl
    rw [hexchanges, transcriptOf_signedAhead,
      run.committedNonces_eq (runResponderHandshake_discipline h).consume_once]
    exact List.nodup_singleton _

theorem responder_authenticates_initiator_quiet :
    ∃ h : SystemHistory Unit Unit openCrypto.isPoint, Idealized openCrypto h ∧
      ResponderActive quietFormats h () quietInputs quietSession ∧
      ∃ key proofI intent finalConfirm activate, InitiatorAuthentic quietFormats h () quietInputs
        quietSession key proofI intent finalConfirm activate := by
  obtain ⟨w, hw, -, -, hnotes⟩ := exists_quiet_run (.inr rfl)
  have hnote (input : List UInt8) (hmem : ⟨.sha256 input, ()⟩ ∈ w) :
      .hashed input ∈ w.filterMap ceremonyNote := List.mem_filterMap.mpr ⟨_, hmem, rfl⟩
  have hideal : Idealized openCrypto (signedAhead w) :=
    idealized_signedAhead hw fun input input' hinput hinput' heq => by
      have hdistinct := hnotes _ (hnote input hinput) _ (hnote input' hinput')
      by_contra hne
      simp [CeremonyNote.collides, hne, heq] at hdistinct
  have hactive : ResponderActive quietFormats (signedAhead w) () quietInputs quietSession := by
    rw [ResponderActive, transcriptOf_signedAhead]
    exact hw
  exact ⟨signedAhead w, hideal, hactive,
    (responder_authenticates_initiator quietFormats_lawful _ hideal).1 () _ _ hactive⟩

/-- The initiator `i`. -/
def quietInitiator : CeremonyInputs openCrypto.isPoint :=
  { quietInputs with localIdentity := ⟨"hh", "i", List.replicate 32 1, quietDelegation "i" 1⟩ }

/-- The intent of `i` with what it was built for. -/
def quietPending : PendingIntent :=
  ⟨quietIntent, .dev, List.replicate 33 2, Vector.replicate 32 0xb0, 1, List.replicate 32 4, 150⟩

/-- The records that the responder sends. -/
def quietReplies : List (List UInt8) :=
  [do encodeAuthFrame quietFormats (.proofR (← ProofR.new quietHFinal "hh" "r" (List.replicate 32 2)
      (List.replicate 32 3) 1 (List.replicate 32 4) 150 (quietDelegation "r" 2) placeholderSig)),
    do encodeAuthFrame quietFormats (.finalConfirm (← FinalConfirm.new quietHFinal "i"
      (List.replicate 32 1) "r" placeholderSig)),
    do encodeAuthFrame quietFormats (.activateAck (← ActivateAck.new quietHFinal "r"
      (List.replicate 32 typeActivate) placeholderSig))].filterMap Except.toOption

/-- A transcript without nonces, and with distinct digests. -/
abbrev QuietTranscript (w : CeremonyTranscript Unit openCrypto.isPoint) : Prop :=
  (signedAhead w).filterMap SystemEvent.committedNonce = [] ∧ (w.filterMap fun
    | ⟨.sha256 input, _⟩ => some (openCrypto.sha256 input)
    | _ => none).Nodup

theorem exists_quiet_initiator_run : ∃ session w,
    Yields (runInitiatorHandshake openCrypto quietFormats quietInitiator quietPending)
      (.ok session) w ∧ QuietTranscript w := by
  have hprogram : ∃ x, runInitiatorHandshake openCrypto quietFormats quietInitiator quietPending = x ∧
      (run (quietEnvironment quietReplies 120) [] x).1.toOption.isSome ∧
      QuietTranscript (run (quietEnvironment quietReplies 120) [] x).2 := by
    apply Exists.intro
    constructor
    · delta runInitiatorHandshake meetResponder acceptResponder awaitProofR passDelegationGate
      rw [stringSetMatchesExactly_eq]
    · decide +kernel
  obtain ⟨x, hx, hquiet⟩ := hprogram
  have hrun := run_yields (quietEnvironment quietReplies 120) [] x
  generalize run (quietEnvironment quietReplies 120) [] x = outcome at hquiet hrun
  obtain ⟨_ | session, w⟩ := outcome
  · cases hquiet.1
  · exact ⟨session, w, hx ▸ hrun, hquiet.2⟩

theorem initiator_authenticates_responder_quiet :
    ∃ (h : SystemHistory Unit Unit openCrypto.isPoint) (session : ActiveMeshSession),
      Idealized openCrypto h ∧
      Yields (runInitiatorHandshake openCrypto quietFormats quietInitiator quietPending)
        (.ok session) (transcriptOf h ()) ∧
      ∃ finalConfirm, HolderSigned quietFormats h () (.frame (.finalConfirm finalConfirm)) := by
  obtain ⟨session, w, hw, hnonces, hdigests⟩ := exists_quiet_initiator_run
  have hideal : Idealized openCrypto (signedAhead w) := by
    refine ⟨fun _ _ _ _ _ _ hsplit _ => signed_signedAhead hsplit,
      fun input input' hinput hinput' heq => ?_, hnonces ▸ List.nodup_nil⟩
    cases eq_of_nodup_filterMap hdigests (mem_of_hashed hinput) (mem_of_hashed hinput') rfl
      (congrArg some heq.symm)
    rfl
  rw [← transcriptOf_signedAhead (w := w)] at hw
  obtain ⟨-, a, finalConfirm, activate, activateAck, -, -, -, hsigned, -⟩ :=
    initiator_authenticates_responder quietFormats_lawful hideal hw
  exact ⟨_, session, hideal, hw, finalConfirm, hsigned _ (by simp)⟩

end

end Theyos.MeshSession

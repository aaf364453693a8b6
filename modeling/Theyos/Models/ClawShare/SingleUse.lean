import Mathlib.Algebra.Group.Nat.Defs
import Theyos.Core.Bytes.Framing
import Theyos.Core.Machine.Conduct
import Theyos.Core.Machine.Guard
import Theyos.Core.Store.Expiring

/-!
# Single-use proofs

Session tokens, group claims and relay-offer challenges are accepted through tables in
memory. Each verification reads the clock once and reaches its table whenever it gets there,
so a table is pruned by times that are out of order.
-/

namespace Theyos.ClawShare

open Machine Expiring

abbrev Bytes := List UInt8

/-- Addition that stops at the largest 64-bit word. -/
def saturatingAdd (a b : ℕ) : ℕ := min (a + b) (2 ^ 64 - 1)

structure SessionAuthToken where
  sessionId : String
  credentialHash : Bytes
  endpoint : String
  targetId : String
  nonce : Bytes
  expiresAt : ℕ
  signature : Bytes

structure AuthEnvelope where
  credentialCbor : Bytes
  token : SessionAuthToken

/-- What a session takes from the guest's credential. -/
structure GuestCredential where
  clawId : String
  guestDevicePub : Bytes

inductive RelayStreamResource where
  | pty | clawSite | ipTunnel
  deriving DecidableEq

/-- The signed part of an offer; what no session reads counts only in its canonical bytes. -/
structure RelayStreamOfferPayload where
  clawId : String
  guestDevicePub : Bytes
  resource : RelayStreamResource
  canonicalBytes : Except String Bytes

structure RelayStreamOfferSession where
  sessionId : String
  meshIpv6 : String
  allowsPersistentTargets : Bool

inductive DataTunnelError where
  | cbor (message : String)
  | rejected (reason : String)
  | tokenRejected (reason : String)

structure ClawShareClaim where
  v : UInt8
  kind : String
  slotId : Bytes
  guestDevicePub : Bytes
  nonce : Bytes
  timestamp : ℕ
  participantNpub : Option String
  guestSignature : Bytes

inductive ClawShareError where
  | versionUnsupported (v : UInt8) | kindMismatch (kind : String) | claimReplayWindow (skew : ℕ)
  | cbor (message : String) | claimSignatureRejected

structure MemberDeviceBinding where
  memberId : String
  memberPub : Bytes
  devicePub : Bytes
  signature : Bytes

structure GroupClaimRequest where
  v : UInt8
  challenge : Bytes
  binding : MemberDeviceBinding
  groupId : String
  clawId : String
  devicePop : Bytes
  ttlSecs : Option ℕ

structure VerifiedGroupClaim where
  groupId : String
  memberId : String
  devicePub : Bytes
  clawId : String
  ttlSecs : Option ℕ

inductive GroupClaimReject where
  | claimInvalid | requestVersion | challengeNotNonce | deviceMismatch | bindingInvalid
  | devicePop | nonceReplay | notAuthorized (reason : String) | nonSentinelDeviceFields

/-- The codecs and the cryptography. -/
structure Library where
  decodeCredential : Bytes → Except String GuestCredential
  credentialHash : Bytes → Bytes
  encodeToken : SessionAuthToken → Except String Bytes
  encodeClaim : ClawShareClaim → Except String Bytes
  verifySignature : Bytes → Bytes → Bytes → Bool
  verifyBinding : MemberDeviceBinding → Bool
  verifyDevicePop : GroupClaimRequest → Bool

variable (L : Library)

def SessionAuthToken.verify (token : SessionAuthToken) (guestDevicePub expectedHash : Bytes)
    (now : ℕ) : Except DataTunnelError Unit := do
  require (token.credentialHash = expectedHash) (.tokenRejected "credential-hash-mismatch")
  require (now < token.expiresAt) (.tokenRejected "token-expired")
  require (token.expiresAt ≤ saturatingAdd now 300) (.tokenRejected "token-ttl-too-long")
  let bytes ← (L.encodeToken token).mapError .cbor
  require (L.verifySignature guestDevicePub bytes token.signature)
    (.tokenRejected "signature-invalid")

/-- What is checked before the replay guard; the standing of a credential is what the slots
say of it at that moment. -/
def sessionChecks (envelope : AuthEnvelope)
    (standing : GuestCredential → ℕ → Except DataTunnelError Unit) (now : ℕ) :
    Except DataTunnelError GuestCredential := do
  let cred ← (L.decodeCredential envelope.credentialCbor).mapError .cbor
  standing cred now
  envelope.token.verify L cred.guestDevicePub (L.credentialHash envelope.credentialCbor) now
  require (envelope.token.targetId = cred.clawId) (.tokenRejected "target-mismatch")
  return cred

/-- The replay guard. -/
def checkAndRecord (nonce : Bytes) (expiresAt now : ℕ) (seen : Table Bytes) :
    Except DataTunnelError Unit × Table Bytes :=
  let seen := seen.retain now
  if seen.contains nonce then (.error (.tokenRejected "token-replayed"), seen)
  else (.ok (), seen.insert nonce expiresAt)

/-- Record the nonce of a token that passed its checks, and go on. -/
def SessionAuthToken.spend {α β : Type} (token : SessionAuthToken)
    (checks : Except DataTunnelError α) (finish : α → Except DataTunnelError β)
    (seen : Table Bytes) (now : ℕ) : Except DataTunnelError β × Table Bytes :=
  match checks with
  | .error e => (.error e, seen)
  | .ok a =>
    let (recorded, seen) := checkAndRecord token.nonce token.expiresAt now seen
    (recorded.bind fun _ => finish a, seen)

def authorizeSession (envelope : AuthEnvelope)
    (standing : GuestCredential → ℕ → Except DataTunnelError Unit) (seen : Table Bytes)
    (now : ℕ) : Except DataTunnelError GuestCredential × Table Bytes :=
  envelope.token.spend (sessionChecks L envelope standing now) .ok seen now

def RelayStreamOfferSession.fromOffer (offer : RelayStreamOfferPayload) :
    Except DataTunnelError RelayStreamOfferSession := do
  let bytes ← offer.canonicalBytes.mapError .cbor
  let hash := L.credentialHash bytes
  let groups := [0, 2, 4, 6].map fun i => hexText ((hash.drop i).take 2)
  return ⟨hexText hash, "fd00:c1a0::" ++ ":".intercalate groups, offer.resource = .clawSite⟩

/-- What is checked before the replay guard when a guest dials under an offer. -/
def offerChecks (offer : RelayStreamOfferPayload) (envelope : AuthEnvelope) (now : ℕ) :
    Except DataTunnelError Unit := do
  let bytes ← offer.canonicalBytes.mapError .cbor
  envelope.token.verify L offer.guestDevicePub (L.credentialHash bytes) now
  require (envelope.token.targetId = offer.clawId) (.tokenRejected "target-mismatch")

def verifyRelayStreamOfferSession (offer : RelayStreamOfferPayload) (envelope : AuthEnvelope)
    (seen : Table Bytes) (now : ℕ) : Except DataTunnelError RelayStreamOfferSession × Table Bytes :=
  envelope.token.spend (offerChecks L offer envelope now)
    (fun _ => RelayStreamOfferSession.fromOffer L offer) seen now

def claimTimestampToleranceSecs : ℕ := 60

def groupClaimNonceTtlSecs : ℕ := 2 * claimTimestampToleranceSecs + 1

variable (s : Process) (claim : ClawShareClaim)

def ClawShareClaim.verify (now : ℕ) : Except ClawShareError Unit := do
  require (claim.v = 1) (.versionUnsupported claim.v)
  require (claim.kind = "claw-share/claim") (.kindMismatch claim.kind)
  let skew := (now - claim.timestamp) + (claim.timestamp - now)
  require (skew ≤ claimTimestampToleranceSecs) (.claimReplayWindow skew)
  let bytes ← (L.encodeClaim claim).mapError .cbor
  require (L.verifySignature claim.guestDevicePub bytes claim.guestSignature)
    .claimSignatureRejected

/-- The first second at which a claim is too old. -/
def ClawShareClaim.lapse : ℕ :=
  saturatingAdd claim.timestamp (claimTimestampToleranceSecs + 1)

def maxTrackedGroupNonces : ℕ := 16384

def recordFirstUse (nonce : Bytes) (now ttlSecs : ℕ) (nonces : Table Bytes) : Bool × Table Bytes :=
  let nonces := nonces.retain now
  if nonces.contains nonce then (false, nonces)
  else if maxTrackedGroupNonces ≤ nonces.entries.length then (false, nonces)
  else (true, nonces.insert nonce (saturatingAdd now ttlSecs))

/-- What is checked of a group claim before its nonce is recorded. -/
def groupChecks (req : GroupClaimRequest) (now : ℕ) :
    Except GroupClaimReject Unit := do
  (claim.verify L now).mapError fun _ => .claimInvalid
  require (req.v = 1) .requestVersion
  require (req.challenge = claim.nonce) .challengeNotNonce
  require (req.binding.devicePub = claim.guestDevicePub) .deviceMismatch
  require (L.verifyBinding req.binding) .bindingInvalid
  require (L.verifyDevicePop req) .devicePop

/-- The members of a group as the projection has them. -/
abbrev Membership := GroupClaimRequest → Except String Unit

def verifyGroupClaim (req : GroupClaimRequest) (members : Membership)
    (nonces : Table Bytes) (now : ℕ) :
    Except GroupClaimReject VerifiedGroupClaim × Table Bytes :=
  match groupChecks L claim req now with
  | .error e => (.error e, nonces)
  | .ok () =>
    let (first, nonces) := recordFirstUse claim.nonce now groupClaimNonceTtlSecs nonces
    (do require first .nonceReplay
        (members req).mapError .notAuthorized
        require (claim.slotId = List.replicate 16 0 ∧ claim.participantNpub = none)
          .nonSentinelDeviceFields
        return ⟨req.groupId, req.binding.memberId, req.binding.devicePub, req.clawId, req.ttlSecs⟩,
      nonces)

def relayOfferChallengeBytes : ℕ := 32

def relayOfferChallengeTtlSecs : ℕ := 60

def maxOutstandingChallenges : ℕ := 16384

/-- Issues the challenge that the random source gave. -/
def issue (random : Bytes) (now ttlSecs : ℕ) (challenges : Table Bytes) :
    Option Bytes × Table Bytes :=
  let challenges := challenges.retain now
  if maxOutstandingChallenges ≤ challenges.entries.length then (none, challenges)
  else (some random, challenges.insert random (saturatingAdd now ttlSecs))

def consume (challenge : Bytes) (now : ℕ) (challenges : Table Bytes) : Bool × Table Bytes :=
  if challenge.length ≠ relayOfferChallengeBytes then (false, challenges)
  else
    let challenges := challenges.retain now
    (challenges.contains challenge, challenges.erase challenge)

/-- The tables of a process, the times its clock has shown, and what was accepted: tokens and
claims with the times at which they lapse. -/
structure Process where
  shown : List ℕ := []
  seen : Table Bytes := {}
  nonces : Table Bytes := {}
  challenges : Table Bytes := {}
  tokens : List (Bytes × ℕ) := []
  claims : List (Bytes × ℕ) := []
  issued : List Bytes := []
  consumed : List Bytes := []

/-- The clock moves on, or a caller that read it earlier reaches a table. -/
inductive Action where
  | tick (now : ℕ)
  | authorize (now : ℕ) (envelope : AuthEnvelope)
    (standing : GuestCredential → ℕ → Except DataTunnelError Unit)
  | offerSession (now : ℕ) (envelope : AuthEnvelope) (offer : RelayStreamOfferPayload)
  | groupClaim (now : ℕ) (claim : ClawShareClaim) (req : GroupClaimRequest)
    (members : Membership)
  | issue (now : ℕ) (random : Bytes)
  | consume (now : ℕ) (challenge : Bytes)

/-- What the verification of a token leaves of the process. -/
def Process.spent {α : Type} (token : SessionAuthToken)
    (outcome : Except DataTunnelError α × Table Bytes) : Process :=
  { s with
    seen := outcome.2
    tokens := if outcome.1.isOk then (token.nonce, token.expiresAt) :: s.tokens else s.tokens }

/-- What an action leaves of the process. -/
def Process.perform : Action → Process
  | .tick now => { s with shown := now :: s.shown }
  | .authorize now envelope standing =>
    s.spent envelope.token (authorizeSession L envelope standing s.seen now)
  | .offerSession now envelope offer =>
    s.spent envelope.token (verifyRelayStreamOfferSession L offer envelope s.seen now)
  | .groupClaim now claim req members =>
    let (result, nonces) := verifyGroupClaim L claim req members s.nonces now
    { s with
      nonces, claims := if result.isOk then (claim.nonce, claim.lapse) :: s.claims else s.claims }
  | .issue now random =>
    let (result, challenges) := issue random now relayOfferChallengeTtlSecs s.challenges
    { s with challenges, issued := result.toList ++ s.issued }
  | .consume now challenge =>
    let (accepted, challenges) := consume challenge now s.challenges
    { s with
      challenges, consumed := if accepted then challenge :: s.consumed else s.consumed }

/-- The clock never goes back, and a caller's time is one that it has shown. -/
def Process.allows : Action → Bool
  | .tick now => now < 2 ^ 64 && s.shown.all (· ≤ now)
  | .authorize now _ _ | .offerSession now _ _ | .groupClaim now _ _ _ | .issue now _
  | .consume now _ => now ∈ s.shown

def Process.next (action : Action) : Option Process :=
  if s.allows action then some (s.perform L action) else none

/-- A proof that has not lapsed by its caller's time comes before every caller by whose time
it has, and a nonce is not used for proofs that lapse at other times. -/
def Punctual (t : Table Bytes) (accepted : List (Bytes × ℕ)) (nonce : Bytes) (now lapse : ℕ) :
    Prop :=
  now < lapse → ∀ use ∈ accepted, use.1 = nonce →
    use.2 = lapse ∧ ∀ past ∈ t.accesses, past < lapse

/-- Tokens and claims come in time, and the clock has not reached its end. -/
def Process.InTime : Action → Prop
  | .authorize now envelope _ | .offerSession now envelope _ =>
    Punctual s.seen s.tokens envelope.token.nonce now envelope.token.expiresAt
  | .groupClaim now claim _ _ =>
    now < 2 ^ 64 - 1 ∧ Punctual s.nonces s.claims claim.nonce now claim.lapse
  | _ => True

instance : (action : Action) → Decidable (s.InTime action)
  | .authorize now envelope _ | .offerSession now envelope _ =>
    inferInstanceAs (Decidable (now < envelope.token.expiresAt → ∀ use ∈ s.tokens, _ → _ ∧ _))
  | .groupClaim now claim _ _ =>
    inferInstanceAs (Decidable (_ ∧ (now < claim.lapse → ∀ use ∈ s.claims, _ → _ ∧ _)))
  | .tick _ | .issue _ _ | .consume _ _ => isTrue trivial

variable {L} {t : Table Bytes} {accepted : List (Bytes × ℕ)} {now lapse expiry : ℕ} {nonce : Bytes}

/-- A proof that is in time and whose nonce is not held is accepted for the first time. -/
theorem Punctual.accept (h : Spent t accepted) (hpunctual : Punctual t accepted nonce now lapse)
    (hnow : now < lapse) (hheld : lapse ≤ expiry)
    (hkey : (t.retain now).contains nonce = false) :
    Spent ((t.retain now).insert nonce expiry) ((nonce, lapse) :: accepted) := by
  refine h.retain.accept hkey hheld fun use huse heq past hpast => ?_
  obtain ⟨hlapse, hearly⟩ := hpunctual hnow use huse heq
  rw [hlapse]
  obtain rfl | hpast := List.mem_cons.mp hpast
  · exact hnow
  · exact hearly past hpast

theorem SessionAuthToken.spend_spent {α β : Type} {token : SessionAuthToken}
    {checks : Except DataTunnelError α} {finish : α → Except DataTunnelError β}
    (h : Spent t accepted) (hchecks : ∀ a, checks = .ok a → now < token.expiresAt)
    (hpunctual : Punctual t accepted token.nonce now token.expiresAt) :
    Spent (token.spend checks finish t now).2 (if (token.spend checks finish t now).1.isOk then
      (token.nonce, token.expiresAt) :: accepted else accepted) := by
  unfold spend checkAndRecord
  cases checks with
  | error e => exact h
  | ok a =>
    dsimp only
    split
    · exact h.retain
    · rename_i hkey
      rw [Bool.not_eq_true] at hkey
      split
      · exact hpunctual.accept h (hchecks a rfl) (Nat.le_refl _) hkey
      · exact h.retain.insert hkey

theorem SessionAuthToken.fresh_of_verify {token : SessionAuthToken} {pub hash : Bytes}
    (h : token.verify L pub hash now = .ok ()) : now < token.expiresAt := by
  simp only [verify, eq_ok_iff] at h
  exact h.2.1

theorem fresh_of_groupChecks {claim : ClawShareClaim} {req : GroupClaimRequest}
    (h : groupChecks L claim req now = .ok ()) :
    now ≤ claim.timestamp + 60 ∧ claim.timestamp ≤ now + 60 := by
  simp only [groupChecks, ClawShareClaim.verify, eq_ok_iff] at h
  obtain ⟨⟨-, -, hskew, -⟩, -⟩ := h
  unfold claimTimestampToleranceSecs at hskew
  omega

theorem verifyGroupClaim_spent (h : Spent t accepted) (claim : ClawShareClaim)
    (req : GroupClaimRequest) (members : Membership) (hend : now < 2 ^ 64 - 1)
    (hpunctual : Punctual t accepted claim.nonce now claim.lapse) :
    Spent (verifyGroupClaim L claim req members t now).2
      (if (verifyGroupClaim L claim req members t now).1.isOk then
        (claim.nonce, claim.lapse) :: accepted else accepted) := by
  unfold verifyGroupClaim recordFirstUse
  cases hchecks : groupChecks L claim req now with
  | error e => exact h
  | ok u =>
    obtain ⟨hnow, hskew⟩ := fresh_of_groupChecks hchecks
    dsimp only
    split
    · exact h.retain
    · rename_i hkey
      rw [Bool.not_eq_true] at hkey
      split
      · exact h.retain
      · split
        · refine hpunctual.accept h ?_ ?_ hkey
          all_goals
            simp only [ClawShareClaim.lapse, saturatingAdd, claimTimestampToleranceSecs,
              groupClaimNonceTtlSecs]
            omega
        · exact h.retain.insert hkey

/-- What holds of the tables of a process. -/
structure SingleUse (s : Process) : Prop where
  tokens : Spent s.seen s.tokens
  claims : Spent s.nonces s.claims
  challenges : Returned s.challenges s.issued s.consumed

theorem SingleUse.next {s s' : Process} {action : Action} (h : SingleUse s)
    (hintime : s.InTime action) (hnext : s.next L action = some s') : SingleUse s' := by
  unfold Process.next at hnext
  split at hnext
  · cases hnext
    cases action with
    | tick => exact ⟨h.tokens, h.claims, h.challenges⟩
    | authorize now envelope standing =>
      refine ⟨SessionAuthToken.spend_spent h.tokens (fun cred hchecks => ?_) hintime, h.claims,
        h.challenges⟩
      simp only [sessionChecks, eq_ok_iff] at hchecks
      obtain ⟨_, -, -, hverify, -⟩ := hchecks
      exact SessionAuthToken.fresh_of_verify hverify
    | offerSession now envelope offer =>
      refine ⟨SessionAuthToken.spend_spent h.tokens (fun u hchecks => ?_) hintime, h.claims,
        h.challenges⟩
      simp only [offerChecks, eq_ok_iff] at hchecks
      obtain ⟨_, -, hverify, -⟩ := hchecks
      exact SessionAuthToken.fresh_of_verify hverify
    | groupClaim now claim req members =>
      exact ⟨h.tokens, verifyGroupClaim_spent h.claims claim req members hintime.1 hintime.2,
        h.challenges⟩
    | issue now random =>
      refine ⟨h.tokens, h.claims, ?_⟩
      unfold Process.perform issue
      dsimp only
      split
      · exact h.challenges.drop List.filter_sublist
      · exact (h.challenges.drop List.filter_sublist).insert
    | consume now challenge =>
      refine ⟨h.tokens, h.claims, ?_⟩
      unfold Process.perform consume
      dsimp only
      split
      · exact h.challenges
      · split
        · rename_i hkey
          exact (h.challenges.drop List.filter_sublist).erase hkey
        · exact (h.challenges.drop List.filter_sublist).drop List.filter_sublist
  · cases hnext

/-- Every credential and signature is good. -/
def openLibrary : Library where
  decodeCredential _ := .ok ⟨"claw", []⟩
  credentialHash := id
  encodeToken _ := .ok []
  encodeClaim _ := .ok []
  verifySignature _ _ _ := true
  verifyBinding _ := true
  verifyDevicePop _ := true

def session (now : ℕ) (nonce : Bytes) (expiresAt : ℕ) : Action :=
  .authorize now ⟨[], "session", [], "endpoint", "claw", nonce, expiresAt, []⟩ fun _ _ => .ok ()

def membership (now : ℕ) (nonce : Bytes) (timestamp : ℕ) : Action :=
  .groupClaim now ⟨1, "claw-share/claim", .replicate 16 0, [], nonce, timestamp, none, []⟩
    ⟨1, nonce, ⟨"member", [], [], []⟩, "group", "claw", [], none⟩ fun _ => .ok ()

/-- Every proof is shown twice, and the second caller has read the clock later. -/
def repeatedRun : List Action :=
  [.tick 100, session 100 [1] 105, .tick 104, session 104 [1] 105, membership 100 [1] 100,
    membership 104 [1] 100, .issue 104 (.replicate 32 7), .consume 100 (.replicate 32 7),
    .consume 104 (.replicate 32 7)]

/-- Every proof is shown twice, and a caller that has read the clock after it lapsed comes in
between. -/
def overtakenRun : List Action :=
  [.tick 100, session 100 [1] 105, .tick 104, .tick 106, session 106 [2] 110, session 104 [1] 105,
    .tick 940, membership 940 [1] 1000, .tick 1060, .tick 1061, membership 1061 [2] 1061,
    membership 1060 [1] 1000]

/-- A caller that has read the clock earlier may find its nonce pruned by one that has read it
later, and use it a second time. -/
theorem nonces_accepted_twice :
    (overtakenRun.foldlM (Process.next openLibrary) {}).map (fun s => (s.tokens, s.claims)) =
      some ([([1], 105), ([2], 110), ([1], 105)], [([1], 1061), ([2], 1122), ([1], 1061)]) := by
  decide +kernel

/-- Along every run in which proofs come in time, no nonce of a token and no nonce of a group
claim is accepted twice, and no challenge is accepted more often than it was issued. -/
theorem proofs_single_use (L : Library) {actions : List Action} {s : Process}
    (hintime : Throughout (Process.next L) Process.InTime {} actions)
    (hrun : actions.foldlM (Process.next L) {} = some s) :
    (s.tokens.map Prod.fst).Nodup ∧ (s.claims.map Prod.fst).Nodup ∧
      s.consumed.Subperm s.issued := by
  have hstart : SingleUse {} := ⟨.start, .start, List.nil_subperm⟩
  have h := hintime.keeps (fun _ _ _ hs hc hnext => SingleUse.next hs hc hnext) hstart hrun
  exact ⟨h.tokens.nodup, h.claims.nodup, (List.sublist_append_left _ _).subperm.trans h.challenges⟩

theorem proofs_single_use_repeated : ∃ s,
    repeatedRun.foldlM (Process.next openLibrary) {} = some s ∧ (s.tokens.map Prod.fst).Nodup ∧
      (s.claims.map Prod.fst).Nodup ∧ s.consumed.Subperm s.issued := by
  have hintime : Throughout (Process.next openLibrary) Process.InTime {} repeatedRun := by
    decide +kernel
  exact ⟨_, rfl, proofs_single_use openLibrary hintime rfl⟩

end Theyos.ClawShare

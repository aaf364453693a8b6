import Theyos.Models.Roster.Record

/-!
# Who may sign a roster

The owner's certificate is checked before anything it signed: the household root, the strength of
its provenance, the identity expected and its caveats. Checkpoints and revocations are then
checked against it, and members against the household root.
-/

namespace Theyos.Roster

open Household Machine

/-- Whose signatures are expected, and when. -/
structure RosterAuthorityContext where
  hhPub : P256PublicKey
  expectedHhId : HouseholdId
  expectedPId : PersonId
  expectedPPub : P256PublicKey
  effectiveNow : UInt64
  deriving DecidableEq, Repr

section

variable (L : Library)

/-- The fingerprint of the owner's certificate. -/
def ownerCertFingerprint (cert : PersonCert) : Except RosterCryptoError Digest := do
  let bytes ← (L.personCert.toCanonicalVec cert).mapError fun _ => .cborEncode
  return L.sha256 bytes

/-- The fingerprint of a machine's certificate. -/
def machineCertFingerprint (cert : MachineCert) : Except RosterCryptoError Digest := do
  let bytes ← (L.machineCert.toCanonicalVec cert).mapError fun _ => .cborEncode
  return L.sha256 bytes

/-- Read the owner's certificate from its canonical bytes. -/
def decodeOwnerCert (certBytes : List UInt8) : Except RosterCryptoError PersonCert := do
  let cert ← (L.personCert.fromCanonicalSlice certBytes).mapError fun _ => .certDecode
  let reencoded ← (L.personCert.toCanonicalVec cert).mapError fun _ => .cborEncode
  require (reencoded = certBytes) .certNotCanonical
  return cert

/-- Check the owner's certificate and compute its fingerprint. -/
def validateOwnerCertCore (certBytes : List UInt8) (ctx : RosterAuthorityContext) :
    Except RosterCryptoError (PersonCert × Digest) := do
  let cert ← decodeOwnerCert L certBytes
  (L.verifyRootedIdentity cert ctx.expectedHhId ctx.hhPub ctx.effectiveNow).mapError
    fun _ => .ownerCertInvalid
  require (cert.hasStrongOwnerProvenance = true) .weakProvenance
  require (cert.pId = ctx.expectedPId) .ownerIdMismatch
  require (cert.pPub = ctx.expectedPPub) .ownerPubMismatch
  require (permits cert.caveats .householdAddMachine = true) .missingCaveatAddMachine
  require (permits cert.caveats .householdRevoke = true) .missingCaveatRevoke
  require (∀ caveat ∈ ownerCaveats, permits cert.caveats caveat.op = true) .ownerCertInvalid
  let computedFp ← ownerCertFingerprint L cert
  return (cert, computedFp)

/-- Check the authority of a revocation. -/
def verifyRevocationAuthority (rev : MachineRosterRevocationV1) (ctx : RosterAuthorityContext) :
    Except RosterCryptoError Unit := do
  checkRevocationSchema rev
  require (rev.hhId = ctx.expectedHhId) .householdMismatch
  require (rev.ownerPId = ctx.expectedPId) .ownerIdMismatch
  let (_, computedFp) ← validateOwnerCertCore L rev.ownerPersonCert ctx
  require (computedFp = rev.ownerCertFingerprint) .fingerprintMismatch
  let preimage ← revocationPreimage rev
  (L.verifySignature ctx.expectedPPub preimage rev.signature).mapError fun _ => .signatureRejected

/-- Check the authority of a checkpoint. -/
def verifyCheckpointAuthority (c : MachineRosterCheckpointV1) (ctx : RosterAuthorityContext) :
    Except RosterCryptoError Unit := do
  checkCheckpointSchema c
  require (c.hhId = ctx.expectedHhId) .householdMismatch
  require (c.ownerPId = ctx.expectedPId) .ownerIdMismatch
  let (_, computedFp) ← validateOwnerCertCore L c.ownerPersonCert ctx
  require (computedFp = c.ownerCertFingerprint) .fingerprintMismatch
  let preimage ← checkpointPreimage c
  (L.verifySignature ctx.expectedPPub preimage c.signature).mapError fun _ => .signatureRejected

/-- Check that a member's certificate comes from the household root and names the member. -/
def validateMemberProvenance (member : MachineRosterMemberV1) (hhPub : P256PublicKey)
    (expectedHhId : HouseholdId) : Except RosterCryptoError MachineCert := do
  let cert ← (L.machineCert.fromCanonicalSlice member.machineCert).mapError fun _ => .cborDecode
  let reencoded ← (L.machineCert.toCanonicalVec cert).mapError fun _ => .cborEncode
  require (reencoded = member.machineCert) .machineCertNotCanonical
  (L.verifyMachineCert cert hhPub).mapError fun _ => .machineCertInvalid
  require (cert.hhId = expectedHhId) .machineHouseholdMismatch
  require (cert.mId = member.mId) .machineIdMismatch
  require (cert.mPub = member.mPub) .machinePubMismatch
  let computedFp ← machineCertFingerprint L cert
  require (computedFp = member.machineCertFingerprint) .machineFingerprintMismatch
  return cert

end

end Theyos.Roster

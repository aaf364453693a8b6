import Theyos.Core.Machine.Guard

/-!
# Household identities and certificates

Identifiers, keys, the owner's certificate with its caveats, and the certificate of a machine,
each with the checks made against the household root. The types follow the source field by field.
-/

namespace Theyos.Household

open Machine

/-- Identifier of a household. -/
structure HouseholdId where
  asStr : String
  deriving DecidableEq, Repr

/-- Identifier of a machine. -/
structure MachineId where
  asStr : String
  deriving DecidableEq, Repr

/-- Identifier of a person. -/
structure PersonId where
  asStr : String
  deriving DecidableEq, Repr

/-- Identifier of a device. -/
structure DeviceId where
  asStr : String
  deriving DecidableEq, Repr

/-- A compressed public key. -/
abbrev P256PublicKey := Vector UInt8 33

/-- A raw signature. -/
abbrev P256Signature := Vector UInt8 64

/-- A hash or a fingerprint. -/
abbrev Digest := Vector UInt8 32

/-- The hash that stands for no predecessor. -/
def zeroDigest : Digest := Vector.replicate 32 0

/-- Why a certificate is refused. -/
inductive HouseholdError where
  | cbor (detail : String)
  | identifierMismatch (expected actual : String)
  | publicKeyMalformed
  | signatureMalformed
  | signatureMismatch
  | invalidCert (detail : String)
  deriving DecidableEq, Repr

/-- Who issued a certificate. -/
inductive SubjectId where
  | household (id : HouseholdId)
  | machine (id : MachineId)
  | person (id : PersonId)
  | device (id : DeviceId)
  deriving DecidableEq, Repr

/-- The identifier's text. -/
def SubjectId.asStr : SubjectId → String
  | household id => id.asStr
  | machine id => id.asStr
  | person id => id.asStr
  | device id => id.asStr

/-- A claim about how the owner was authenticated. -/
inductive OwnerAuthClaimValue where
  | null
  | text (value : String)
  | unsigned (value : UInt64)
  | signed (value : Int64)
  | bool (value : Bool)
  | bytes (value : List UInt8)
  | array (items : List OwnerAuthClaimValue)
  | map (entries : List (String × OwnerAuthClaimValue))

/-- The claim's text, if it is one. -/
def OwnerAuthClaimValue.asText : OwnerAuthClaimValue → Option String
  | .text value => some value
  | _ => none

/-- Operations a caveat can grant. -/
inductive Operation where
  | clawsList
  | clawsCreate
  | clawsDelete
  | clawsUse
  | clawsAssign
  | householdInvite
  | householdRevoke
  | householdAddMachine
  | householdAddDevice
  | ownerAuthEnrollInitial
  deriving DecidableEq, Repr

/-- What an operation is granted on. -/
inductive Scope where
  | all (all : Bool)
  | ownedBySelf (ownedBySelf : Bool)
  | specific (specific : List String)
  deriving DecidableEq, Repr

/-- The whole household. -/
def Scope.isAll : Scope → Bool
  | all true => true
  | _ => false

/-- The closed map of constraints: its two keys, each present or not. -/
structure Constraints where
  machines : Option (List String)
  expiresAt : Option UInt64
  deriving DecidableEq, Repr

/-- A granted operation. -/
structure Caveat where
  op : Operation
  scope : Option Scope
  constraints : Option Constraints
  deriving DecidableEq, Repr

/-- The operations an owner has. -/
def ownerCaveats : List Caveat :=
  [⟨.clawsList, some (.all true), none⟩, ⟨.clawsCreate, some (.all true), none⟩,
   ⟨.clawsDelete, some (.all true), none⟩,
   ⟨.clawsUse, some (.all true), none⟩,
   ⟨.clawsAssign, some (.all true), none⟩,
   ⟨.householdInvite, none, none⟩,
   ⟨.householdRevoke, none, none⟩,
   ⟨.householdAddMachine, none, none⟩]

/-- Whether a list of caveats grants an operation. -/
def permits (caveats : List Caveat) (op : Operation) : Bool :=
  caveats.any fun c =>
    decide (c.op = op) && c.constraints.isNone &&
      match op with
      | .clawsList | .clawsCreate | .clawsDelete | .clawsUse | .clawsAssign =>
        c.scope.any Scope.isAll
      | .householdInvite | .householdRevoke | .householdAddMachine | .ownerAuthEnrollInitial =>
        c.scope.isNone
      | .householdAddDevice => false

/-- The signed part of a person's certificate. -/
structure PersonCertUnsigned where
  version : UInt8
  certType : String
  hhId : HouseholdId
  pId : PersonId
  pPub : P256PublicKey
  displayName : String
  caveats : List Caveat
  notBefore : UInt64
  notAfter : Option UInt64
  nonce : List UInt8
  issuedAt : UInt64
  issuedBy : SubjectId
  ownerAuthTier : Option OwnerAuthClaimValue
  ownerProvenance : Option OwnerAuthClaimValue

/-- A person's certificate. -/
structure PersonCert extends PersonCertUnsigned where
  signature : P256Signature

/-- Kinds of certificates. -/
inductive CertType where
  | machine
  | person
  | device
  deriving DecidableEq, Repr

/-- The kind's name in messages. -/
def CertType.debug : CertType → String
  | machine => "Machine"
  | person => "Person"
  | device => "Device"

/-- Platforms of a machine. -/
inductive Platform where
  | macos
  | linuxNix
  | linuxOther
  deriving DecidableEq, Repr

/-- The signed part of a machine's certificate; no caveat is defined for machines. -/
structure MachineCertUnsigned where
  version : UInt8
  certType : CertType
  hhId : HouseholdId
  mId : MachineId
  mPub : P256PublicKey
  hostname : String
  platform : Platform
  joinedAt : UInt64
  issuedBy : SubjectId
  caveats : List Empty

/-- A machine's certificate. -/
structure MachineCert extends MachineCertUnsigned where
  signature : P256Signature

/-- The canonical writer and the lenient reader of a type. -/
structure Canonical (α : Type) where
  toCanonicalVec : α → Except HouseholdError (List UInt8)
  fromCanonicalSlice : List UInt8 → Except HouseholdError α

/-- The cryptographic functions and the certificate formats of a household. -/
structure Library where
  /-- SHA-256. -/
  sha256 : List UInt8 → Digest
  /-- The compressed form of a point on the curve. -/
  isPoint : P256PublicKey → Bool
  /-- ECDSA verification. -/
  verifySignature : P256PublicKey → List UInt8 → P256Signature → Except HouseholdError Unit
  /-- The base-32 text of a key's hash. -/
  keyName : P256PublicKey → String
  personCert : Canonical PersonCert
  machineCert : Canonical MachineCert
  /-- The canonical bytes of a person certificate's signed part. -/
  personCertUnsigned : PersonCertUnsigned → Except HouseholdError (List UInt8)
  /-- The canonical bytes of a machine certificate's signed part. -/
  machineCertUnsigned : MachineCertUnsigned → Except HouseholdError (List UInt8)

/-- A control character. -/
def isControl (c : Char) : Bool := c.val < 0x20 || (0x7f ≤ c.val && c.val < 0xa0)

/-- Check a display name. -/
def validateDisplayName (name : String) : Except HouseholdError Unit := do
  require (name.utf8ByteSize ≠ 0) (.invalidCert "display name must be non-empty")
  require (name.utf8ByteSize ≤ 64)
    (.invalidCert s!"display name must be <= 64 UTF-8 bytes (got {name.utf8ByteSize})")
  require (name.toList.any isControl = false)
    (.invalidCert "display name contains control character")

/-- Check a host name. -/
def validateHostname (name : String) : Except HouseholdError Unit := do
  require (name.utf8ByteSize ≠ 0) (.invalidCert "hostname empty")
  require (name.utf8ByteSize ≤ 255)
    (.invalidCert s!"hostname > 255 bytes (got {name.utf8ByteSize})")
  require (name.toList.any isControl = false) (.invalidCert "hostname contains control char")

namespace Library

variable (L : Library)

variable (key : P256PublicKey)

/-- Check that a key is a compressed point on the curve. -/
def publicKeyFromBytes : Except HouseholdError Unit := do
  require (key[0] = 2 ∨ key[0] = 3) .publicKeyMalformed
  require (L.isPoint key = true) .publicKeyMalformed

/-- The identifier of the person with a key. -/
def derivePersonId : PersonId := ⟨"p_" ++ L.keyName key⟩

/-- The identifier of the machine with a key. -/
def deriveMachineId : MachineId := ⟨"m_" ++ L.keyName key⟩

/-- Check a person's certificate against the household root, its caveats apart. -/
def verifyRootedIdentity (cert : PersonCert) (expectedHhId : HouseholdId)
    (hhPub : P256PublicKey) (now : UInt64) : Except HouseholdError Unit := do
  require (cert.version = 1) (.invalidCert s!"version {cert.version} unsupported")
  require (cert.certType = "person")
    (.invalidCert s!"expected person cert, got {cert.certType.quote}")
  require (cert.hhId = expectedHhId) (.identifierMismatch expectedHhId.asStr cert.hhId.asStr)
  L.publicKeyFromBytes cert.pPub
  require (L.derivePersonId cert.pPub = cert.pId)
    (.identifierMismatch (L.derivePersonId cert.pPub).asStr cert.pId.asStr)
  validateDisplayName cert.displayName
  require (cert.issuedBy = .household expectedHhId)
    (.invalidCert ("issued_by must be Household(" ++ expectedHhId.asStr ++ "); got " ++
      cert.issuedBy.asStr))
  require (cert.nonce.length = 16)
    (.invalidCert s!"person cert nonce must be 16 bytes, got {cert.nonce.length}")
  require (cert.notBefore ≤ cert.issuedAt) (.invalidCert "not_before must be <= issued_at")
  require (cert.notBefore ≤ now) (.invalidCert "person cert not yet valid")
  require (cert.notAfter.all (now < ·)) (.invalidCert "person cert expired")
  let signingBytes ← L.personCertUnsigned cert.toPersonCertUnsigned
  L.verifySignature hhPub signingBytes cert.signature

/-- Check a machine's certificate against the household root. -/
def verifyMachineCert (cert : MachineCert) (hhPub : P256PublicKey) :
    Except HouseholdError Unit := do
  require (cert.version = 1) (.invalidCert s!"version {cert.version} unsupported")
  require (cert.certType = .machine)
    (.invalidCert s!"cert_type {cert.certType.debug} forbidden in Phase 1")
  L.publicKeyFromBytes cert.mPub
  require (L.deriveMachineId cert.mPub = cert.mId)
    (.identifierMismatch (L.deriveMachineId cert.mPub).asStr cert.mId.asStr)
  require (cert.issuedBy = .household cert.hhId)
    (.invalidCert ("issued_by must be Household(hh_id) in Phase 1; got " ++ cert.issuedBy.asStr))
  require (cert.caveats = []) (.invalidCert "caveats[] must be empty in Phase 1")
  validateHostname cert.hostname
  let signingBytes ← L.machineCertUnsigned cert.toMachineCertUnsigned
  L.verifySignature hhPub signingBytes cert.signature

end Library

/-- The owner was authenticated strongly, by one of the known means. -/
def PersonCert.hasStrongOwnerProvenance (cert : PersonCert) : Bool :=
  cert.ownerAuthTier.bind OwnerAuthClaimValue.asText == some "strong" &&
    (cert.ownerProvenance.bind OwnerAuthClaimValue.asText).any fun provenance =>
      ["ios-secure-enclave-owner", "ipados-secure-enclave-owner", "ios-app-attest-owner",
        "ipados-app-attest-owner"].contains provenance

/-- The times at which a certificate is in force. -/
def PersonCert.InForce (cert : PersonCert) (now : UInt64) : Prop :=
  cert.notBefore ≤ now ∧ ∀ expires ∈ cert.notAfter, now < expires

/-- Only the time a certificate is checked at changes from one check to another. -/
theorem Library.verifyRootedIdentity_at {L : Library} {cert : PersonCert}
    {expectedHhId : HouseholdId} {hhPub : P256PublicKey} {now later : UInt64}
    (h : L.verifyRootedIdentity cert expectedHhId hhPub now = .ok ()) (hlater : cert.InForce later) :
    L.verifyRootedIdentity cert expectedHhId hhPub later = .ok () := by
  simp only [verifyRootedIdentity, eq_ok_iff] at h ⊢
  obtain ⟨hversion, htype, hhh, hkey, hid, hname, hissuer, hnonce, hissued, -, -, hsig⟩ := h
  have hexpires : cert.notAfter.all (later < ·) = true := by
    simpa [Option.all_eq_true] using hlater.2
  exact ⟨hversion, htype, hhh, hkey, hid, hname, hissuer, hnonce, hissued, hlater.1, hexpires, hsig⟩

end Theyos.Household

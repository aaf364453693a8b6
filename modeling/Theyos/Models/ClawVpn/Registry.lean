import Theyos.Core.Machine.Program
import Theyos.Core.Word.Checked
import Theyos.Models.ClawVpn.Packet

/-!
# The session registry of a claw VPN

A session is opened for a key that is granted, while the sessions of its member and claw and those
of its claw stay below their limits.
-/

namespace Theyos.ClawVpn

open Machine TunnelWire

/-- Who may use which claw from which device. -/
structure ClawVpnAclKey where
  memberId : String
  devicePub : List UInt8
  clawId : String
  deriving DecidableEq, Repr

/-- The identifier of a session. -/
abbrev ClawVpnSessionId := UInt64

/-- An open session. -/
structure ClawVpnSession where
  id : ClawVpnSessionId
  aclKey : ClawVpnAclKey
  sessionIndex : UInt32
  addrs : ClawVpnSessionAddrs
  deriving DecidableEq, Repr

/-- Why a session is not opened. -/
inductive ClawVpnSessionRegistryError where
  | zeroSessionLimit
  | unauthorized
  | memberClawSessionLimitReached
  | clawSessionLimitReached
  | sessionIdExhausted
  | sessionIndexExhausted
  | pool (error : ClawVpnPoolError)
  deriving DecidableEq, Repr

/-- Why a frame of a session is refused. -/
inductive ClawVpnSessionFrameError where
  | unknownSession
  | packet (error : ClawVpnValidatedPacketError)
  deriving DecidableEq, Repr

/-- The keys that are granted, each once. -/
structure ClawVpnAcl where
  grants : List ClawVpnAclKey

namespace ClawVpnAcl

/-- Whether a key is granted. -/
def isAuthorized (acl : ClawVpnAcl) (key : ClawVpnAclKey) : Bool := key ∈ acl.grants

/-- Grant a key, and tell whether it was new. -/
def grant (key : ClawVpnAclKey) (acl : ClawVpnAcl) : Bool × ClawVpnAcl :=
  if acl.isAuthorized key then (false, acl) else (true, ⟨key :: acl.grants⟩)

/-- Revoke a key, and tell whether it was granted. -/
def revoke (key : ClawVpnAclKey) (acl : ClawVpnAcl) : Bool × ClawVpnAcl :=
  (acl.isAuthorized key, ⟨acl.grants.filter (· ≠ key)⟩)

end ClawVpnAcl

/-- What was removed with a key. -/
structure ClawVpnAclRevocation where
  grantRemoved : Bool
  closedSessionCount : ℕ
  deriving DecidableEq, Repr

def clawVpnDefaultMaxSessionsPerMemberClaw : ℕ := 1

/-- The sessions, the grants, the limits and the counters. -/
structure ClawVpnSessionRegistry where
  acl : ClawVpnAcl
  pool : ClawVpnIpv4Pool
  maxSessionsPerMemberClaw : ℕ
  maxSessionsPerClaw : ℕ
  nextSessionId : UInt64
  nextSessionIndex : UInt32
  freeSessionIndices : List UInt32
  sessions : List ClawVpnSession

/-- Whether two keys have the same member and the same claw. -/
def sameMemberClaw (left right : ClawVpnAclKey) : Bool :=
  left.memberId = right.memberId ∧ left.clawId = right.clawId

namespace ClawVpnSessionRegistry

/-- A registry with one session for each member and claw. -/
def new (acl : ClawVpnAcl) (pool : ClawVpnIpv4Pool) : ClawVpnSessionRegistry :=
  ⟨acl, pool, clawVpnDefaultMaxSessionsPerMemberClaw, maxU64.toNat, 1, 0, [], []⟩

/-- A registry with given limits. -/
def withLimits (acl : ClawVpnAcl) (pool : ClawVpnIpv4Pool)
    (maxSessionsPerMemberClaw maxSessionsPerClaw : ℕ) :
    Except ClawVpnSessionRegistryError ClawVpnSessionRegistry := do
  require (¬ (maxSessionsPerMemberClaw = 0 ∨ maxSessionsPerClaw = 0)) .zeroSessionLimit
  return ⟨acl, pool, maxSessionsPerMemberClaw, maxSessionsPerClaw, 1, 0, [], []⟩

variable (r : ClawVpnSessionRegistry)

variable (key : ClawVpnAclKey)

/-- The number of sessions of a member and a claw. -/
def sessionsForMemberClaw : ℕ :=
  r.sessions.countP fun session => sameMemberClaw session.aclKey key

/-- The number of sessions of a claw. -/
def sessionsForClaw (clawId : String) : ℕ :=
  r.sessions.countP fun session => session.aclKey.clawId = clawId

variable (sessionId : ClawVpnSessionId)

/-- The open session with an identifier. -/
def find? : Option ClawVpnSession :=
  r.sessions.find? (·.id = sessionId)

/-- Enter a session under its identifier. -/
def insert (session : ClawVpnSession) : ClawVpnSessionRegistry :=
  { r with sessions := session :: r.sessions.filter (·.id ≠ session.id) }

/-- Remove a session and give its index back. -/
def remove (session : ClawVpnSession) : ClawVpnSessionRegistry :=
  { r with
    sessions := r.sessions.filter (·.id ≠ session.id)
    freeSessionIndices := r.freeSessionIndices ++ [session.sessionIndex] }

/-- Grant a key. -/
def grant : Bool × ClawVpnSessionRegistry :=
  let (added, acl) := r.acl.grant key
  (added, { r with acl := acl })

/-- The index of a new session and the next new index. -/
def chooseIndex (reused : Option UInt32) : Except ClawVpnSessionRegistryError (UInt32 × UInt32) :=
  match reused with
  | some index => .ok (index, r.nextSessionIndex)
  | none =>
    okOr ((checkedAdd32 r.nextSessionIndex 1).map (r.nextSessionIndex, ·)) .sessionIndexExhausted

/-- Open a session. -/
def openSession :
    Program ClawVpnSessionRegistryError ClawVpnSessionRegistry ClawVpnSession := do
  let r ← get
  Program.require (r.acl.isAuthorized key) .unauthorized
  Program.require (¬ r.maxSessionsPerMemberClaw ≤ r.sessionsForMemberClaw key)
    .memberClawSessionLimitReached
  Program.require (¬ r.maxSessionsPerClaw ≤ r.sessionsForClaw key.clawId) .clawSessionLimitReached
  let nextSessionId ← Program.ofExcept (okOr (checkedAdd r.nextSessionId 1) .sessionIdExhausted)
  let reused := r.freeSessionIndices.getLast?
  modify fun r => { r with freeSessionIndices := r.freeSessionIndices.dropLast }
  let (sessionIndex, nextSessionIndex) ← Program.ofExcept (r.chooseIndex reused)
  match r.pool.allocatePair sessionIndex with
  | .error error =>
    modify fun r =>
      { r with freeSessionIndices := r.freeSessionIndices ++ reused.toList }
    throw (.pool error)
  | .ok addrs =>
    let session : ClawVpnSession := ⟨r.nextSessionId, key, sessionIndex, addrs⟩
    modify fun r =>
      { r.insert session with nextSessionId := nextSessionId, nextSessionIndex := nextSessionIndex }
    return session

/-- Close a session. -/
def close : Option ClawVpnSession × ClawVpnSessionRegistry :=
  match r.find? sessionId with
  | some session => (some session, r.remove session)
  | none => (none, r)

/-- Close the sessions of a list, and count them. -/
def closeAll : List ClawVpnSessionId → ClawVpnSessionRegistry → ℕ × ClawVpnSessionRegistry
  | [], r => (0, r)
  | sessionId :: sessionIds, r =>
    match r.close sessionId with
    | (some _, r') => ((closeAll sessionIds r').1 + 1, (closeAll sessionIds r').2)
    | (none, r') => closeAll sessionIds r'

/-- The identifiers of the sessions of a key. -/
def sessionIdsOf : List ClawVpnSessionId :=
  (r.sessions.filter (·.aclKey = key)).map (·.id)

/-- Revoke a key and close its sessions, in the given order if it is an order of them. -/
def revoke (order : List ClawVpnSessionId) (key : ClawVpnAclKey) :
    ClawVpnAclRevocation × ClawVpnSessionRegistry :=
  let (grantRemoved, acl) := r.acl.revoke key
  let r := { r with acl := acl }
  let sessionIds := r.sessionIdsOf key
  let (closed, r) := closeAll (if order.isPerm sessionIds then order else sessionIds) r
  (⟨grantRemoved, closed⟩, r)

/-- Accept a packet for a session. -/
def validateIpv4PacketForSession (direction : ClawVpnPacketDirection) (packet : List UInt8) :
    Except ClawVpnSessionFrameError ClawVpnValidatedPacket := do
  let session ← okOr (r.find? sessionId) .unknownSession
  (ClawVpnValidatedPacket.tryFromIpv4Packet session.addrs direction packet).mapError .packet

/-- Accept a frame for a session. -/
def validateTunnelFrameForSession (direction : ClawVpnPacketDirection) (frame : TunnelFrame) :
    Except ClawVpnSessionFrameError ClawVpnValidatedPacket := do
  let session ← okOr (r.find? sessionId) .unknownSession
  (ClawVpnValidatedPacket.tryFromTunnelFrame session.addrs direction frame).mapError .packet

/-- The frame of a packet read from the interface. -/
def packetFromLocalInterface (localSide : ClawVpnDatapathSide)
    (packet : List UInt8) : Except ClawVpnSessionFrameError TunnelFrame :=
  (r.validateIpv4PacketForSession sessionId localSide.localToRelayDirection packet).map
    ClawVpnValidatedPacket.intoTunnelFrame

/-- The packet of a frame from the relay. -/
def packetFromRelay (localSide : ClawVpnDatapathSide)
    (frame : TunnelFrame) : Except ClawVpnSessionFrameError ClawVpnValidatedPacket :=
  r.validateTunnelFrameForSession sessionId localSide.relayToLocalDirection frame

end ClawVpnSessionRegistry

/-- A call on a registry. -/
inductive Call where
  | grant (key : ClawVpnAclKey)
  | openSession (key : ClawVpnAclKey)
  | close (sessionId : ClawVpnSessionId)
  | revoke (order : List ClawVpnSessionId) (key : ClawVpnAclKey)

/-- A registry and the sessions that were opened, the last one first. -/
structure Trace where
  registry : ClawVpnSessionRegistry
  opened : List ClawVpnSession

/-- Perform a call. -/
def perform (t : Trace) : Call → Trace
  | .grant key => { t with registry := (t.registry.grant key).2 }
  | .openSession key =>
    match (ClawVpnSessionRegistry.openSession key).exec t.registry with
    | (.ok session, r) => ⟨r, session :: t.opened⟩
    | (.error _, r) => { t with registry := r }
  | .close sessionId => { t with registry := (t.registry.close sessionId).2 }
  | .revoke order key => { t with registry := (t.registry.revoke order key).2 }

/-- Perform calls one after the other. -/
def run (calls : List Call) (start : ClawVpnSessionRegistry) : Trace :=
  calls.foldl perform ⟨start, []⟩

end Theyos.ClawVpn

import Theyos.Models.ClawVpn.Pool
import Theyos.Models.TunnelWire.Frame

/-!
# The packets of a claw VPN session

A packet passes only with the two addresses of its session, in the order of its direction.
What passes is forwarded unchanged, as the data frame of one side and the packet of the
other.
-/

namespace Theyos.ClawVpn

open Machine TunnelWire

/-- Which way a packet goes. -/
inductive ClawVpnPacketDirection where
  | deviceToClaw
  | clawToDevice
  deriving DecidableEq, Repr

/-- Which side owns the interface. -/
inductive ClawVpnDatapathSide where
  | device
  | claw
  deriving DecidableEq, Repr

namespace ClawVpnDatapathSide

/-- The direction of a packet from the interface. -/
def localToRelayDirection : ClawVpnDatapathSide → ClawVpnPacketDirection
  | device => .deviceToClaw
  | claw => .clawToDevice

/-- The direction of a packet for the interface. -/
def relayToLocalDirection : ClawVpnDatapathSide → ClawVpnPacketDirection
  | device => .clawToDevice
  | claw => .deviceToClaw

/-- The other side. -/
def peer : ClawVpnDatapathSide → ClawVpnDatapathSide
  | device => claw
  | claw => device

theorem relayToLocalDirection_peer (side : ClawVpnDatapathSide) :
    side.peer.relayToLocalDirection = side.localToRelayDirection := by
  cases side <;> rfl

end ClawVpnDatapathSide

/-- Why a packet is refused by the policy of a session. -/
inductive ClawVpnPacketPolicyError where
  | packetTooShort
  | unsupportedVersion
  | invalidHeaderLength
  | invalidTotalLength
  | sourceMismatch
  | destinationMismatch
  deriving DecidableEq, Repr

/-- Why a packet or a frame is refused. -/
inductive ClawVpnValidatedPacketError where
  | packetTooLarge
  | unexpectedTunnelFrame
  | policy (error : ClawVpnPacketPolicyError)
  deriving DecidableEq, Repr

/-- The addresses of a header. -/
structure Ipv4Header where
  src : Ipv4Addr
  dst : Ipv4Addr
  deriving DecidableEq, Repr

def ipv4MinHeaderLen : ℕ := 20
def ipv4Version : UInt8 := 4
def clawVpnV1InnerMtu : ℕ := 1400

/-- The address of four bytes. -/
def Ipv4Addr.new (a b c d : UInt8) : Ipv4Addr := ⟨.ofNat (beNat [a, b, c, d])⟩

/-- Read the header of a packet. -/
def parseIpv4Header (packet : List UInt8) : Except ClawVpnPacketPolicyError Ipv4Header := do
  require (ipv4MinHeaderLen ≤ packet.length) .packetTooShort
  let byte := fun i => packet.getD i 0
  require (byte 0 >>> 4 = ipv4Version) .unsupportedVersion
  let headerLen := (byte 0 &&& 0x0f).toNat * 4
  require (ipv4MinHeaderLen ≤ headerLen ∧ headerLen ≤ packet.length) .invalidHeaderLength
  let totalLen := beNat [byte 2, byte 3]
  require (headerLen ≤ totalLen ∧ totalLen = packet.length) .invalidTotalLength
  return ⟨.new (byte 12) (byte 13) (byte 14) (byte 15),
    .new (byte 16) (byte 17) (byte 18) (byte 19)⟩

/-- The addresses of a direction. -/
def ClawVpnSessionAddrs.expected (addrs : ClawVpnSessionAddrs) :
    ClawVpnPacketDirection → Ipv4Addr × Ipv4Addr
  | .deviceToClaw => (addrs.device, addrs.claw)
  | .clawToDevice => (addrs.claw, addrs.device)

/-- Refuse a packet that is not between the addresses of a session. -/
def checkIpv4Packet (addrs : ClawVpnSessionAddrs) (direction : ClawVpnPacketDirection)
    (packet : List UInt8) : Except ClawVpnPacketPolicyError Unit := do
  let header ← parseIpv4Header packet
  let (src, dst) := addrs.expected direction
  require (header.src = src) .sourceMismatch
  require (header.dst = dst) .destinationMismatch

/-- A packet that was accepted for a session. -/
structure ClawVpnValidatedPacket where
  bytes : List UInt8
  deriving DecidableEq, Repr

namespace ClawVpnValidatedPacket

/-- Accept a packet. -/
def tryFromIpv4Packet (addrs : ClawVpnSessionAddrs) (direction : ClawVpnPacketDirection)
    (packet : List UInt8) : Except ClawVpnValidatedPacketError ClawVpnValidatedPacket := do
  require (¬ clawVpnV1InnerMtu < packet.length) .packetTooLarge
  (checkIpv4Packet addrs direction packet).mapError .policy
  return ⟨packet⟩

/-- Accept the packet of a frame. -/
def tryFromTunnelFrame (addrs : ClawVpnSessionAddrs) (direction : ClawVpnPacketDirection)
    (frame : TunnelFrame) : Except ClawVpnValidatedPacketError ClawVpnValidatedPacket :=
  match frame with
  | .data packet => tryFromIpv4Packet addrs direction packet
  | _ => .error .unexpectedTunnelFrame

/-- The frame of a packet. -/
def intoTunnelFrame (packet : ClawVpnValidatedPacket) : TunnelFrame := .data packet.bytes

variable {addrs : ClawVpnSessionAddrs} {direction : ClawVpnPacketDirection} {packet : List UInt8}
  {accepted : ClawVpnValidatedPacket}

/-- An accepted packet is unchanged and carries the addresses of its session. -/
theorem tryFromIpv4Packet_eq_ok (h : tryFromIpv4Packet addrs direction packet = .ok accepted) :
    accepted.bytes = packet ∧ ∃ header, parseIpv4Header packet = .ok header ∧
      (header.src, header.dst) = addrs.expected direction := by
  simp only [tryFromIpv4Packet, checkIpv4Packet, eq_ok_iff] at h
  obtain ⟨-, ⟨header, hheader, hsrc, hdst⟩, rfl⟩ := h
  exact ⟨rfl, header, hheader, Prod.ext hsrc hdst⟩

/-- The source of an accepted packet is one of the addresses of its session. -/
theorem exists_src (h : tryFromIpv4Packet addrs direction packet = .ok accepted) :
    ∃ header, parseIpv4Header packet = .ok header ∧
      (header.src = addrs.device ∨ header.src = addrs.claw) := by
  obtain ⟨-, header, hheader, haddrs⟩ := tryFromIpv4Packet_eq_ok h
  refine ⟨header, hheader, ?_⟩
  cases direction with
  | deviceToClaw => exact .inl (congrArg Prod.fst haddrs)
  | clawToDevice => exact .inr (congrArg Prod.fst haddrs)

end ClawVpnValidatedPacket

/-- Two pairs of addresses have no address in common. -/
def ClawVpnSessionAddrs.Disjoint (a b : ClawVpnSessionAddrs) : Prop :=
  a.device ≠ b.device ∧ a.device ≠ b.claw ∧ a.claw ≠ b.device ∧ a.claw ≠ b.claw

/-- A packet is not accepted for two disjoint pairs of addresses, in whatever directions. -/
theorem ClawVpnSessionAddrs.Disjoint.rejects {a b : ClawVpnSessionAddrs} (hdisjoint : a.Disjoint b)
    {direction other : ClawVpnPacketDirection} {packet : List UInt8}
    {accepted : ClawVpnValidatedPacket}
    (h : ClawVpnValidatedPacket.tryFromIpv4Packet a direction packet = .ok accepted) :
    ∀ again, ClawVpnValidatedPacket.tryFromIpv4Packet b other packet ≠ .ok again := by
  intro again hagain
  obtain ⟨header, hheader, hsrc⟩ := ClawVpnValidatedPacket.exists_src h
  obtain ⟨header', hheader', hsrc'⟩ := ClawVpnValidatedPacket.exists_src hagain
  cases hheader.symm.trans hheader'
  obtain ⟨hdd, hdc, hcd, hcc⟩ := hdisjoint
  rcases hsrc with hsrc | hsrc <;> rcases hsrc' with hsrc' | hsrc' <;>
    rw [hsrc] at hsrc' <;> contradiction

end Theyos.ClawVpn

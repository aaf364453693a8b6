import Theyos.Core.Machine.Guard
import Theyos.Core.Word.Narrow

/-!
# The address pool of a claw VPN

A pool is an IPv4 prefix that overlaps neither the carrier-grade nor the private ranges and whose
network address is neither unspecified nor multicast.
-/

namespace Theyos.ClawVpn

open Machine

/-- An IPv4 address. -/
structure Ipv4Addr where
  bits : UInt32
  deriving DecidableEq, Repr

namespace Ipv4Addr

/-- The number of an address. -/
def toNat (addr : Ipv4Addr) : ℕ := addr.bits.toNat

theorem toNat_inj {a b : Ipv4Addr} : a.toNat = b.toNat ↔ a = b := by
  constructor
  · intro h
    cases a
    cases b
    exact congrArg Ipv4Addr.mk (UInt32.toNat_inj.mp h)
  · exact congrArg toNat

/-- The address `0.0.0.0`. -/
def isUnspecified (addr : Ipv4Addr) : Bool := addr.bits = 0

/-- An address of `224.0.0.0/4`. -/
def isMulticast (addr : Ipv4Addr) : Bool :=
  (224 : UInt32) ≤ addr.bits >>> 24 ∧ addr.bits >>> 24 ≤ (239 : UInt32)

theorem isUnspecified_iff {addr : Ipv4Addr} : addr.isUnspecified ↔ addr.toNat = 0 := by
  unfold isUnspecified toNat
  rw [decide_eq_true_iff, ← UInt32.toNat_inj]
  rfl

theorem isMulticast_iff {addr : Ipv4Addr} : addr.isMulticast ↔ addr.toNat / 2 ^ 28 = 14 := by
  unfold isMulticast toNat
  have hshift : (addr.bits >>> 24).toNat = addr.bits.toNat / 2 ^ 24 := by
    rw [UInt32.toNat_shiftRight, Nat.shiftRight_eq_div_pow]
    rfl
  rw [decide_eq_true_iff, UInt32.le_iff_toNat_le, UInt32.le_iff_toNat_le]
  change 224 ≤ _ ∧ _ ≤ 239 ↔ _
  omega

end Ipv4Addr

/-- Why an address is refused. -/
inductive ClawVpnAddressError where
  | unspecified
  | multicast
  | sameAddress
  deriving DecidableEq, Repr

/-- Why a pool is refused or has no pair of addresses. -/
inductive ClawVpnPoolError where
  | prefixTooSmall
  | hostBitsSet
  | invalidNetwork
  | overlapsReservedRange
  | exhausted
  deriving DecidableEq, Repr

/-- Refuse an address that cannot be used in a tunnel. -/
def validateInnerAddr (addr : Ipv4Addr) : Except ClawVpnAddressError Unit := do
  require (¬ addr.isUnspecified) .unspecified
  require (¬ addr.isMulticast) .multicast

/-- The two addresses of a session. -/
structure ClawVpnSessionAddrs where
  device : Ipv4Addr
  claw : Ipv4Addr
  deriving DecidableEq, Repr

/-- Two addresses that can be used. -/
def ClawVpnSessionAddrs.tryNew (device claw : Ipv4Addr) :
    Except ClawVpnAddressError ClawVpnSessionAddrs := do
  validateInnerAddr device
  validateInnerAddr claw
  require (device ≠ claw) .sameAddress
  return ⟨device, claw⟩

/-- The mask of the network part. -/
def ipv4PrefixMask (prefixLen : UInt8) : UInt32 :=
  if prefixLen = 0 then 0 else 0xffffffff <<< (32 - prefixLen.toUInt32)

/-- The first and the last address. -/
def ipv4PrefixRange (network : UInt32) (prefixLen : UInt8) : UInt32 × UInt32 :=
  let mask := ipv4PrefixMask prefixLen
  let start := network &&& mask
  (start, start ||| ~~~ mask)

/-- Whether two ranges have an address in common. -/
def rangesOverlap (aStart aEnd bStart bEnd : UInt32) : Bool := aStart ≤ bEnd ∧ bStart ≤ aEnd

/-- The carrier-grade range and the private ranges. -/
def reservedRanges : List (UInt32 × UInt32) :=
  [(0x64400000, 0x647fffff), (0x0a000000, 0x0affffff), (0xac100000, 0xac1fffff),
    (0xc0a80000, 0xc0a8ffff)]

/-- A network address and the length of its prefix. -/
structure PoolSpec where
  network : Ipv4Addr
  prefixLen : UInt8
  deriving DecidableEq, Repr

/-- Refuse a prefix that cannot be a pool. -/
def PoolSpec.check (spec : PoolSpec) : Except ClawVpnPoolError Unit := do
  require (spec.prefixLen ≤ 30) .prefixTooSmall
  require (spec.network.bits &&& ~~~ ipv4PrefixMask spec.prefixLen = 0) .hostBitsSet
  let (start, last) := ipv4PrefixRange spec.network.bits spec.prefixLen
  require (¬ reservedRanges.any fun r => rangesOverlap start last r.1 r.2) .overlapsReservedRange
  (validateInnerAddr spec.network).mapError fun _ => .invalidNetwork

/-- A prefix that was accepted. -/
abbrev ClawVpnIpv4Pool := Checked PoolSpec.check

namespace ClawVpnIpv4Pool

/-- Accept a prefix. -/
def tryNew (network : Ipv4Addr) (prefixLen : UInt8) : Except ClawVpnPoolError ClawVpnIpv4Pool :=
  validate PoolSpec.check ⟨network, prefixLen⟩

/-- The addresses of a session. -/
def allocatePair (pool : ClawVpnIpv4Pool) (sessionIndex : UInt32) :
    Except ClawVpnPoolError ClawVpnSessionAddrs := do
  let network := pool.1.network.bits
  let (_, last) := ipv4PrefixRange network pool.1.prefixLen
  let firstUsable ← okOr (checkedAdd32 network 1) .exhausted
  let offset ← okOr (checkedMul32 sessionIndex 2) .exhausted
  let device ← okOr (checkedAdd32 firstUsable offset) .exhausted
  let claw ← okOr (checkedAdd32 device 1) .exhausted
  require (¬ last ≤ claw) .exhausted
  (ClawVpnSessionAddrs.tryNew ⟨device⟩ ⟨claw⟩).mapError fun _ => .exhausted

end ClawVpnIpv4Pool

variable (spec : PoolSpec)

/-- The number of bits below the network part. -/
def PoolSpec.hostBits : ℕ := 32 - spec.prefixLen.toNat

/-- The number of pairs in a pool. -/
def PoolSpec.capacity : ℕ := 2 ^ (31 - spec.prefixLen.toNat) - 1

/-- The number of the last address. -/
def PoolSpec.last : ℕ := spec.network.toNat + (2 ^ spec.hostBits - 1)

/-- The mask of the host part. -/
theorem toNat_not_prefixMask {prefixLen : UInt8} (h : prefixLen ≤ 30) :
    (~~~ ipv4PrefixMask prefixLen).toNat = 2 ^ (32 - prefixLen.toNat) - 1 := by
  have hall : ∀ n : Fin 31, (~~~ ipv4PrefixMask (UInt8.ofNat n)).toNat = 2 ^ (32 - n.val) - 1 := by
    decide
  have hlt : prefixLen.toNat < 31 := Nat.lt_succ_of_le (UInt8.le_iff_toNat_le.mp h)
  have hn := hall ⟨prefixLen.toNat, hlt⟩
  rwa [UInt8.ofNat_toNat] at hn

theorem validateInnerAddr_eq_ok {addr : Ipv4Addr} :
    validateInnerAddr addr = .ok () ↔ addr.toNat ≠ 0 ∧ addr.toNat / 2 ^ 28 ≠ 14 := by
  simp only [validateInnerAddr, eq_ok_iff, Ipv4Addr.isUnspecified_iff, Ipv4Addr.isMulticast_iff]

theorem ClawVpnSessionAddrs.tryNew_eq_ok {device claw : Ipv4Addr} {addrs : ClawVpnSessionAddrs} :
    tryNew device claw = .ok addrs ↔ ⟨device, claw⟩ = addrs ∧ validateInnerAddr device = .ok () ∧
      validateInnerAddr claw = .ok () ∧ device ≠ claw := by
  simp only [tryNew, eq_ok_iff]
  tauto

/-- What an accepted prefix satisfies. -/
structure PoolSpec.Accepted : Prop where
  prefixLen : spec.prefixLen.toNat ≤ 30
  aligned : spec.network.toNat % 2 ^ spec.hostBits = 0
  reserved : ∀ r ∈ reservedRanges, spec.last < r.1.toNat ∨ r.2.toNat < spec.network.toNat
  specified : spec.network.toNat ≠ 0
  unicast : spec.network.toNat / 2 ^ 28 ≠ 14

/-- The range of a prefix without host bits. -/
theorem ipv4PrefixRange_eq {network : UInt32} {prefixLen : UInt8} (hlen : prefixLen ≤ 30)
    (hhost : network &&& ~~~ ipv4PrefixMask prefixLen = 0) :
    (ipv4PrefixRange network prefixLen).1 = network ∧
      network.toNat % 2 ^ (32 - prefixLen.toNat) = 0 ∧
      (ipv4PrefixRange network prefixLen).2.toNat =
        network.toNat + (2 ^ (32 - prefixLen.toNat) - 1) := by
  have hlow := toNat_not_prefixMask hlen
  have haligned : network.toNat % 2 ^ (32 - prefixLen.toNat) = 0 := by
    rw [← Nat.and_two_pow_sub_one_eq_mod, ← hlow, ← UInt32.toNat_and, hhost]
    rfl
  have hstart : network &&& ipv4PrefixMask prefixLen = network := and_eq_self_of_and_not hhost
  refine ⟨hstart, haligned, ?_⟩
  have hlast := toNat_or_low hlow haligned
  simp only [ipv4PrefixRange, hstart, hlast]

theorem PoolSpec.accepted {spec : PoolSpec} (h : spec.check = .ok ()) : spec.Accepted := by
  simp only [PoolSpec.check, eq_ok_iff] at h
  obtain ⟨hlen, hhost, hreserved, hnetwork⟩ := h
  obtain ⟨hstart, haligned, hlast⟩ := ipv4PrefixRange_eq hlen hhost
  obtain ⟨hzero, hmulticast⟩ := validateInnerAddr_eq_ok.mp hnetwork
  refine ⟨UInt8.le_iff_toNat_le.mp hlen, haligned, fun r hr => ?_, hzero, hmulticast⟩
  have hoverlap : ¬ rangesOverlap (ipv4PrefixRange spec.network.bits spec.prefixLen).1
      (ipv4PrefixRange spec.network.bits spec.prefixLen).2 r.1 r.2 := fun hr' =>
    hreserved (List.any_eq_true.mpr ⟨r, hr, hr'⟩)
  rw [rangesOverlap, decide_eq_true_iff, hstart, UInt32.le_iff_toNat_le, UInt32.le_iff_toNat_le,
    hlast] at hoverlap
  simp only [PoolSpec.last, PoolSpec.hostBits, Ipv4Addr.toNat]
  omega

namespace ClawVpnIpv4Pool

variable (pool : ClawVpnIpv4Pool)

/-- No address of an accepted pool is a multicast address. -/
theorem unicast {a : ℕ} (hfirst : pool.1.network.toNat ≤ a)
    (hlast : a ≤ pool.1.last) : a / 2 ^ 28 ≠ 14 := by
  obtain ⟨hlen, haligned, hreserved, hzero, hunicast⟩ := PoolSpec.accepted pool.2
  have hlt : pool.1.network.toNat < 2 ^ 32 := pool.1.network.bits.toNat_lt
  simp only [PoolSpec.last, PoolSpec.hostBits] at haligned hlast hreserved
  generalize pool.1.network.toNat = n at *
  generalize pool.1.prefixLen.toNat = p at *
  by_cases hp : 4 ≤ p
  · obtain ⟨k, hk⟩ : ∃ k, k + (32 - p) = 28 := ⟨28 - (32 - p), by omega⟩
    have hblock : a / 2 ^ (32 - p) = n / 2 ^ (32 - p) := by
      have hpos : 0 < 2 ^ (32 - p) := Nat.two_pow_pos _
      obtain ⟨q, rfl⟩ := Nat.dvd_of_mod_eq_zero haligned
      rw [Nat.mul_div_cancel_left q hpos, Nat.div_eq_iff hpos]
      rw [Nat.mul_comm] at hfirst hlast
      omega
    rwa [← hk, Nat.add_comm, Nat.pow_add, ← Nat.div_div_eq_div_mul, hblock,
      Nat.div_div_eq_div_mul, ← Nat.pow_add, Nat.add_comm, hk]
  · simp only [reservedRanges, List.forall_mem_cons, UInt32.reduceToNat] at hreserved
    obtain ⟨-, -, h172, h192, -⟩ := hreserved
    have hcases : p = 0 ∨ p = 1 ∨ p = 2 ∨ p = 3 := by omega
    rcases hcases with rfl | rfl | rfl | rfl <;>
      simp only [Nat.reduceSub, Nat.reducePow] at haligned hlast h172 h192 hlt hunicast ⊢ <;> omega

/-- The last address of an accepted pool as the code computes it. -/
theorem toNat_rangeEnd :
    (ipv4PrefixRange pool.1.network.bits pool.1.prefixLen).2.toNat = pool.1.last := by
  have h := pool.2
  simp only [PoolSpec.check, eq_ok_iff] at h
  obtain ⟨hlen, hhost, -⟩ := h
  exact (ipv4PrefixRange_eq hlen hhost).2.2

/-- A claw address lies below the last address exactly when its index is below the capacity. -/
theorem lt_last_iff (i : ℕ) :
    pool.1.network.toNat + 2 + 2 * i < pool.1.last ↔ i < pool.1.capacity := by
  have hlen := (PoolSpec.accepted pool.2).prefixLen
  have hbits : pool.1.hostBits = 31 - pool.1.prefixLen.toNat + 1 := by
    unfold PoolSpec.hostBits
    omega
  rw [PoolSpec.last, PoolSpec.capacity, hbits]
  omega

/-- The last address of an accepted pool is an address. -/
theorem last_lt : pool.1.last < 2 ^ 32 := by
  rw [← toNat_rangeEnd]
  exact UInt32.toNat_lt _

variable {pool}

/-- The pair of an index, and when there is one. -/
theorem allocatePair_eq_ok {i : UInt32} {addrs : ClawVpnSessionAddrs} :
    pool.allocatePair i = .ok addrs ↔ i.toNat < pool.1.capacity ∧
      addrs.device.toNat = pool.1.network.toNat + 1 + 2 * i.toNat ∧
      addrs.claw.toNat = pool.1.network.toNat + 2 + 2 * i.toNat := by
  have hlast := last_lt pool
  rw [← lt_last_iff pool]
  simp only [allocatePair, eq_ok_iff, checkedAdd32_eq_some, checkedMul32_eq_some,
    ClawVpnSessionAddrs.tryNew_eq_ok, UInt32.le_iff_toNat_le, toNat_rangeEnd, Nat.not_le,
    UInt32.reduceToNat]
  constructor
  · rintro ⟨first, hfirst, offset, hoffset, device, hdevice, claw, hclaw, hlt, rfl, -⟩
    simp only [Ipv4Addr.toNat] at hlt ⊢
    omega
  · obtain ⟨⟨device⟩, ⟨claw⟩⟩ := addrs
    rintro ⟨hlt, hdevice, hclaw⟩
    have hsize : ∀ k < 2 ^ 32, (UInt32.ofNat k).toNat = k := fun k hk =>
      UInt32.toNat_ofNat_of_lt hk
    simp only [Ipv4Addr.toNat] at hlt hdevice hclaw
    refine ⟨.ofNat (pool.1.network.bits.toNat + 1), hsize _ (by omega), .ofNat (i.toNat * 2),
      hsize _ (by omega), device, ?_, claw, by omega, by omega, rfl, ?_, ?_, ?_⟩
    · rw [hsize _ (by omega), hsize _ (by omega)]
      omega
    · refine validateInnerAddr_eq_ok.mpr ⟨?_, pool.unicast ?_ ?_⟩ <;>
        simp only [Ipv4Addr.toNat] <;> omega
    · refine validateInnerAddr_eq_ok.mpr ⟨?_, pool.unicast ?_ ?_⟩ <;>
        simp only [Ipv4Addr.toNat] <;> omega
    · intro heq
      cases heq
      omega

/-- A pool refuses an index only because it has no more pairs. -/
theorem eq_exhausted_of_allocatePair {i : UInt32} {e : ClawVpnPoolError}
    (h : pool.allocatePair i = .error e) : e = .exhausted := by
  by_contra hne
  have hne' : ClawVpnPoolError.exhausted ≠ e := Ne.symm hne
  refine absurd h (Avoids.bind (Avoids.okOr hne') fun _ => Avoids.bind (Avoids.okOr hne') fun _ =>
    Avoids.bind (Avoids.okOr hne') fun _ => Avoids.bind (Avoids.okOr hne') fun _ =>
      Avoids.bind (Avoids.require hne') fun _ => Avoids.mapError fun _ => hne')

/-- A pool refuses an index exactly when it is past the capacity. -/
theorem allocatePair_eq_error {i : UInt32} {e : ClawVpnPoolError} :
    pool.allocatePair i = .error e ↔ pool.1.capacity ≤ i.toNat ∧ e = .exhausted := by
  have hlast := last_lt pool
  have hbelow := lt_last_iff pool i.toNat
  constructor
  · intro h
    refine ⟨?_, eq_exhausted_of_allocatePair h⟩
    by_contra hlt
    have hlt := Nat.lt_of_not_le hlt
    have hpair : pool.allocatePair i = .ok
        ⟨⟨.ofNat (pool.1.network.toNat + 1 + 2 * i.toNat)⟩,
          ⟨.ofNat (pool.1.network.toNat + 2 + 2 * i.toNat)⟩⟩ :=
      allocatePair_eq_ok.mpr ⟨hlt, UInt32.toNat_ofNat_of_lt (show _ < 2 ^ 32 by omega),
        UInt32.toNat_ofNat_of_lt (show _ < 2 ^ 32 by omega)⟩
    rw [hpair] at h
    cases h
  · rintro ⟨hle, rfl⟩
    cases h : pool.allocatePair i with
    | ok addrs => exact absurd (allocatePair_eq_ok.mp h).1 (Nat.not_lt.mpr hle)
    | error e => rw [eq_exhausted_of_allocatePair h]

end ClawVpnIpv4Pool

end Theyos.ClawVpn

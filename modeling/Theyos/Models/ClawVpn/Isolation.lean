import Theyos.Models.ClawVpn.Invariant

/-!
# Isolation of claw VPN sessions

Two open sessions have different indices and therefore disjoint addresses, so that no packet
passes for both of them. The pool is exhausted only when every pair of it is in use.
-/

namespace Theyos.ClawVpn

open Machine TunnelWire ClawVpnSessionRegistry

/-- What a registry never changes. -/
def ClawVpnSessionRegistry.setup (r : ClawVpnSessionRegistry) : ClawVpnIpv4Pool × ℕ × ℕ :=
  (r.pool, r.maxSessionsPerMemberClaw, r.maxSessionsPerClaw)

theorem setup_perform (t : Trace) (call : Call) :
    (perform t call).registry.setup = t.registry.setup := by
  cases call with
  | grant key => rfl
  | close sessionId =>
    obtain ⟨sessions, free, h⟩ := close_frame t.registry sessionId
    exact (congrArg setup h).trans rfl
  | revoke order key =>
    obtain ⟨sessions, free, h⟩ := closeAll_frame
      (if order.isPerm (t.registry.sessionIdsOf key) then order else t.registry.sessionIdsOf key)
      { t.registry with acl := (t.registry.acl.revoke key).2 }
    exact (congrArg setup h).trans rfl
  | openSession key =>
    have hends := openSession_ends t.registry key t.registry rfl
    rw [perform]
    generalize (openSession key).exec t.registry = result at hends ⊢
    obtain ⟨e | session, r⟩ := result
    · exact congrArg setup hends.unchanged
    · obtain ⟨nextId, nextIndex, free, h, -⟩ := hends.rest
      exact (congrArg setup h).trans rfl

/-- A registry as it is made. -/
def Fresh (r : ClawVpnSessionRegistry) : Prop :=
  (∃ acl pool, r = .new acl pool) ∨
    ∃ acl pool perMemberClaw perClaw,
      ClawVpnSessionRegistry.withLimits acl pool perMemberClaw perClaw = .ok r

theorem Fresh.eq {r : ClawVpnSessionRegistry} (h : Fresh r) :
    r.sessions = [] ∧ r.freeSessionIndices = [] ∧ r.nextSessionIndex = 0 := by
  rcases h with ⟨acl, pool, rfl⟩ | ⟨acl, pool, perMemberClaw, perClaw, h⟩
  · exact ⟨rfl, rfl, rfl⟩
  · simp only [withLimits, eq_ok_iff] at h
    obtain ⟨-, rfl⟩ := h
    exact ⟨rfl, rfl, rfl⟩

theorem Fresh.sound {r : ClawVpnSessionRegistry} (h : Fresh r) : Sound ⟨r, []⟩ := by
  obtain ⟨hsessions, hfree, hnext⟩ := h.eq
  refine ⟨⟨?_, ?_, ?_, fun key => ?_, fun clawId => ?_, ?_, ?_, .nil, nofun⟩, ?_⟩
  · simp only [hsessions, hfree, hnext]
    exact Recycled.empty
  · simp only [hnext]
    exact Nat.zero_le _
  · simp [hsessions]
  · simp [sessionsForMemberClaw, hsessions]
  · simp [sessionsForClaw, hsessions]
  · simp [hsessions]
  · simp [hsessions]
  · simp [hsessions]

/-- Every run is sound and keeps the pool and the limits. -/
theorem run_sound {start : ClawVpnSessionRegistry} (hstart : Fresh start) (calls : List Call) :
    Sound (run calls start) ∧ (run calls start).registry.setup = start.setup :=
  List.foldlRecOn (motive := fun t => Sound t ∧ t.registry.setup = start.setup) calls _
    ⟨hstart.sound, rfl⟩ fun t h call _ => ⟨h.1.perform call, (setup_perform t call).trans h.2⟩

/-- Different indices have disjoint pairs. -/
theorem disjoint_of_allocatePair {pool : ClawVpnIpv4Pool} {i j : UInt32}
    {a b : ClawVpnSessionAddrs} (ha : pool.allocatePair i = .ok a) (hb : pool.allocatePair j = .ok b)
    (hne : i.toNat ≠ j.toNat) : a.Disjoint b := by
  obtain ⟨-, had, hac⟩ := ClawVpnIpv4Pool.allocatePair_eq_ok.mp ha
  obtain ⟨-, hbd, hbc⟩ := ClawVpnIpv4Pool.allocatePair_eq_ok.mp hb
  refine ⟨?_, ?_, ?_, ?_⟩ <;>
  · rw [Ne, ← Ipv4Addr.toNat_inj]
    omega

/-- An address strictly inside a pool and outside every reserved range. -/
structure ClawVpnIpv4Pool.Usable (pool : ClawVpnIpv4Pool) (addr : Ipv4Addr) : Prop where
  first : pool.1.network.toNat < addr.toNat
  last : addr.toNat < pool.1.last
  reserved : ∀ r ∈ reservedRanges, addr.toNat < r.1.toNat ∨ r.2.toNat < addr.toNat

theorem usable_of_allocatePair {pool : ClawVpnIpv4Pool} {i : UInt32} {addrs : ClawVpnSessionAddrs}
    (h : pool.allocatePair i = .ok addrs) : pool.Usable addrs.device ∧ pool.Usable addrs.claw := by
  obtain ⟨hroom, hdevice, hclaw⟩ := ClawVpnIpv4Pool.allocatePair_eq_ok.mp h
  have hlast := (pool.lt_last_iff i.toNat).mpr hroom
  have hreserved := (PoolSpec.accepted pool.2).reserved
  refine ⟨⟨by omega, by omega, fun r hr => ?_⟩, ⟨by omega, by omega, fun r hr => ?_⟩⟩ <;>
  · have hr' := hreserved r hr
    omega

namespace Sound

variable {t : Trace} (h : Sound t)
include h

/-- An open session is found by its identifier. -/
theorem find {session : ClawVpnSession} (hsession : session ∈ t.registry.sessions) :
    t.registry.find? session.id = some session := by
  have hsome : (t.registry.find? session.id).isSome :=
    List.find?_isSome.mpr ⟨session, hsession, decide_eq_true rfl⟩
  obtain ⟨found, hfound⟩ := Option.isSome_iff_exists.mp hsome
  have hid : found.id = session.id := by simpa using List.find?_some hfound
  rw [hfound, List.inj_on_of_nodup_map h.distinct (List.mem_of_find?_eq_some hfound) hsession hid]

theorem pairwise_disjoint : t.registry.sessions.Pairwise fun a b => a.addrs.Disjoint b.addrs := by
  have hindices := List.pairwise_map.mp h.indices.nodup_used
  refine List.Pairwise.imp_of_mem (fun ha hb hne => ?_) hindices
  exact disjoint_of_allocatePair (h.addrs _ ha) (h.addrs _ hb) hne

theorem disjoint {a b : ClawVpnSession} (ha : a ∈ t.registry.sessions)
    (hb : b ∈ t.registry.sessions) (hne : a ≠ b) : a.addrs.Disjoint b.addrs := by
  refine disjoint_of_allocatePair (h.addrs a ha) (h.addrs b hb) fun hindex => hne ?_
  exact List.inj_on_of_nodup_map h.indices.nodup_used ha hb hindex

/-- The pool refuses only when every pair of it is in use. -/
theorem exhausted {key : ClawVpnAclKey} {error : ClawVpnPoolError} {r : ClawVpnSessionRegistry}
    (hopen : (ClawVpnSessionRegistry.openSession key).exec t.registry = (.error (.pool error), r)) :
    error = .exhausted ∧ t.registry.sessions.length = t.registry.pool.1.capacity := by
  have hends := openSession_ends t.registry key t.registry rfl
  rw [hopen] at hends
  obtain ⟨herror, i, hfull, hfree | ⟨hfree, hi⟩⟩ := hends.exhausted error rfl
  · have hlt := h.indices.lt_of_mem_free (List.mem_map_of_mem hfree)
    have hcapacity := h.capacity
    omega
  · have hlength := h.indices.length
    have hcapacity := h.capacity
    rw [hfree, List.map_nil, List.length_nil, List.length_map] at hlength
    rw [hi] at hfull
    exact ⟨herror, by omega⟩

end Sound

/-- A packet accepted for an open session is accepted by its addresses. -/
theorem validateIpv4PacketForSession_eq {r : ClawVpnSessionRegistry} {session : ClawVpnSession}
    (hfind : r.find? session.id = some session) (direction : ClawVpnPacketDirection)
    (packet : List UInt8) :
    r.validateIpv4PacketForSession session.id direction packet =
      (ClawVpnValidatedPacket.tryFromIpv4Packet session.addrs direction packet).mapError .packet := by
  rw [validateIpv4PacketForSession, hfind]
  rfl

/-- What one side frames, the other side accepts unchanged for the same addresses. -/
theorem packetFromRelay_of_frame {r r' : ClawVpnSessionRegistry} {session session' : ClawVpnSession}
    {side : ClawVpnDatapathSide} {packet : List UInt8} {frame : TunnelFrame}
    (hfind : r.find? session.id = some session) (hfind' : r'.find? session'.id = some session')
    (haddrs : session'.addrs = session.addrs)
    (h : r.packetFromLocalInterface session.id side packet = .ok frame) :
    frame = .data packet ∧ r'.packetFromRelay session'.id side.peer frame = .ok ⟨packet⟩ := by
  rw [packetFromLocalInterface, validateIpv4PacketForSession_eq hfind] at h
  obtain ⟨accepted, haccepted, rfl⟩ := map_eq_ok.mp h
  have hpacket := mapError_eq_ok.mp haccepted
  obtain ⟨hbytes, -⟩ := ClawVpnValidatedPacket.tryFromIpv4Packet_eq_ok hpacket
  obtain ⟨bytes⟩ := accepted
  cases hbytes
  refine ⟨rfl, ?_⟩
  change r'.validateIpv4PacketForSession session'.id side.peer.relayToLocalDirection bytes = _
  rw [validateIpv4PacketForSession_eq hfind', haddrs, side.relayToLocalDirection_peer]
  exact haccepted

/-- What isolates the open sessions of a registry with the given pool and limits. -/
structure Isolated (pool : ClawVpnIpv4Pool) (perMemberClaw perClaw : ℕ) (t : Trace) : Prop where
  disjoint : t.registry.sessions.Pairwise fun a b => a.addrs.Disjoint b.addrs
  usable : ∀ session ∈ t.registry.sessions,
    pool.Usable session.addrs.device ∧ pool.Usable session.addrs.claw
  granted : ∀ session ∈ t.registry.sessions, t.registry.acl.isAuthorized session.aclKey
  memberClaw : ∀ key, t.registry.sessionsForMemberClaw key ≤ perMemberClaw
  claw : ∀ clawId, t.registry.sessionsForClaw clawId ≤ perClaw
  /-- No identifier is given to two sessions, and what is open was opened. -/
  ids : (t.opened.map (·.id)).Nodup ∧ ∀ session ∈ t.registry.sessions, session ∈ t.opened
  indices : Recycled (t.registry.sessions.map (·.sessionIndex.toNat))
    (t.registry.freeSessionIndices.map (·.toNat)) t.registry.nextSessionIndex.toNat
  packets : ∀ a ∈ t.registry.sessions, ∀ b ∈ t.registry.sessions, a ≠ b →
    ∀ direction packet accepted,
      t.registry.validateIpv4PacketForSession a.id direction packet = .ok accepted →
      ∀ other again, t.registry.validateIpv4PacketForSession b.id other packet ≠ .ok again
  /-- The two ends of a session may keep registries of their own. -/
  delivered : ∀ session ∈ t.registry.sessions, ∀ side packet frame,
    t.registry.packetFromLocalInterface session.id side packet = .ok frame →
    (∀ text, TunnelFrame.decode text frame.encode = .ok frame) ∧
    t.registry.packetFromRelay session.id side.peer frame = .ok ⟨packet⟩ ∧
    ∀ (r' : ClawVpnSessionRegistry) (session' : ClawVpnSession),
      r'.find? session'.id = some session' → session'.addrs = session.addrs →
      r'.packetFromRelay session'.id side.peer frame = .ok ⟨packet⟩
  exhausted : ∀ key r,
    (ClawVpnSessionRegistry.openSession key).exec t.registry = (.error (.pool .exhausted), r) →
    t.registry.sessions.length = 2 ^ (31 - pool.1.prefixLen.toNat) - 1

/-- The pool `198.18.0.0/29`, which has three pairs. -/
def samplePool : ClawVpnIpv4Pool := ⟨⟨⟨0xc6120000⟩, 29⟩, by rfl⟩

/-- A key of a member for a claw. -/
def sampleKey (memberId clawId : String) : ClawVpnAclKey := ⟨memberId, [4], clawId⟩

/-- Two sessions, of which the first is revoked before a third one is opened. -/
def sampleCalls : List Call :=
  [.grant (sampleKey "m" "c"), .openSession (sampleKey "m" "c"), .grant (sampleKey "n" "c"),
    .openSession (sampleKey "n" "c"), .revoke [1] (sampleKey "m" "c"),
    .grant (sampleKey "o" "d"), .openSession (sampleKey "o" "d")]

/-- In every run of a registry its open sessions are isolated. -/
theorem session_isolation (start : ClawVpnSessionRegistry) (hstart : Fresh start)
    (calls : List Call) :
    Isolated start.pool start.maxSessionsPerMemberClaw start.maxSessionsPerClaw
      (run calls start) := by
  obtain ⟨h, hsetup⟩ := run_sound hstart calls
  simp only [setup, Prod.mk.injEq] at hsetup
  obtain ⟨hpool, hmember, hclaw⟩ := hsetup
  rw [← hpool, ← hmember, ← hclaw]
  refine ⟨h.pairwise_disjoint, fun session hsession => ?_, h.granted, h.memberClaw, h.claw,
    ⟨h.ids, h.opened⟩, h.indices, fun a ha b hb hne direction packet accepted hok => ?_,
    fun session hsession side packet frame hframe => ?_, fun key r hopen => ?_⟩
  · exact usable_of_allocatePair (h.addrs session hsession)
  · intro other again hagain
    rw [validateIpv4PacketForSession_eq (h.find ha)] at hok
    rw [validateIpv4PacketForSession_eq (h.find hb)] at hagain
    exact (h.disjoint ha hb hne).rejects (mapError_eq_ok.mp hok) again (mapError_eq_ok.mp hagain)
  · refine ⟨fun text => TunnelFrame.decode_encode text frame, ?_, fun r' session' hfind haddrs => ?_⟩
    · exact (packetFromRelay_of_frame (h.find hsession) (h.find hsession) rfl hframe).2
    · exact (packetFromRelay_of_frame (h.find hsession) hfind haddrs hframe).2
  · exact (h.exhausted hopen).2

/-- The index that was given back is used again, under a new identifier. -/
theorem session_isolation_reopened :
    ((run sampleCalls (.new ⟨[]⟩ samplePool)).registry.sessions.map fun session =>
        (session.id, session.sessionIndex)) = [(3, 0), (2, 1)] ∧
      Isolated samplePool 1 maxU64.toNat (run sampleCalls (.new ⟨[]⟩ samplePool)) :=
  ⟨by decide +kernel,
    session_isolation (.new ⟨[]⟩ samplePool) (.inl ⟨⟨[]⟩, samplePool, rfl⟩) sampleCalls⟩

end Theyos.ClawVpn

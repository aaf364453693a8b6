import Theyos.Core.Store.Recycled
import Theyos.Models.ClawVpn.Registry

/-!
# The invariant of the session registry

The indices of the open sessions and the free indices are those below the counter, each
once, and the counter stays within the capacity of the pool. Every call keeps this, with
the limits, the grants and the identifiers that were ever given out.
-/

namespace Theyos.ClawVpn

open Machine TunnelWire ClawVpnSessionRegistry

/-- Removing an entry by its key removes exactly that entry. -/
theorem perm_cons_filter_ne {α β : Type*} [DecidableEq β] {f : α → β} {xs : List α} {x : α}
    (hnodup : (xs.map f).Nodup) (hx : x ∈ xs) : xs.Perm (x :: xs.filter (f · ≠ f x)) := by
  classical
  have hkeep : xs.erase x = xs.filter (f · ≠ f x) := by
    rw [hnodup.of_map.erase_eq_filter]
    refine List.filter_congr fun y hy => ?_
    rw [Bool.eq_iff_iff, bne_iff_ne, decide_eq_true_iff]
    exact not_congr ⟨congrArg f, List.inj_on_of_nodup_map hnodup hy hx⟩
  exact hkeep ▸ List.perm_cons_erase hx

/-- What holds of a registry whatever is granted. -/
structure Tidy (t : Trace) : Prop where
  indices : Recycled (t.registry.sessions.map (·.sessionIndex.toNat))
    (t.registry.freeSessionIndices.map (·.toNat)) t.registry.nextSessionIndex.toNat
  capacity : t.registry.nextSessionIndex.toNat ≤ t.registry.pool.1.capacity
  addrs : ∀ session ∈ t.registry.sessions,
    t.registry.pool.allocatePair session.sessionIndex = .ok session.addrs
  memberClaw : ∀ key, t.registry.sessionsForMemberClaw key ≤ t.registry.maxSessionsPerMemberClaw
  claw : ∀ clawId, t.registry.sessionsForClaw clawId ≤ t.registry.maxSessionsPerClaw
  distinct : (t.registry.sessions.map (·.id)).Nodup
  opened : ∀ session ∈ t.registry.sessions, session ∈ t.opened
  ids : (t.opened.map (·.id)).Nodup
  below : ∀ session ∈ t.opened, session.id.toNat < t.registry.nextSessionId.toNat

/-- What holds of every registry. -/
structure Sound (t : Trace) : Prop extends Tidy t where
  granted : ∀ session ∈ t.registry.sessions, t.registry.acl.isAuthorized session.aclKey

/-- What opening a session does. -/
structure Opened (r : ClawVpnSessionRegistry) (key : ClawVpnAclKey) (session : ClawVpnSession)
    (r' : ClawVpnSessionRegistry) : Prop where
  id : session.id = r.nextSessionId
  aclKey : session.aclKey = key
  authorized : r.acl.isAuthorized key
  memberClaw : r.sessionsForMemberClaw key < r.maxSessionsPerMemberClaw
  claw : r.sessionsForClaw key.clawId < r.maxSessionsPerClaw
  addrs : r.pool.allocatePair session.sessionIndex = .ok session.addrs
  rest : ∃ nextId nextIndex free,
    r' = { r.insert session with
      nextSessionId := nextId, nextSessionIndex := nextIndex, freeSessionIndices := free } ∧
    nextId.toNat = r.nextSessionId.toNat + 1 ∧
    (r.freeSessionIndices = free ++ [session.sessionIndex] ∧ nextIndex = r.nextSessionIndex ∨
      r.freeSessionIndices = [] ∧ free = [] ∧ session.sessionIndex = r.nextSessionIndex ∧
        nextIndex.toNat = r.nextSessionIndex.toNat + 1)

/-- What a registry that opens no session is left with, and why the pool refuses. -/
structure Refused (r : ClawVpnSessionRegistry) (e : ClawVpnSessionRegistryError)
    (r' : ClawVpnSessionRegistry) : Prop where
  unchanged : r' = r
  exhausted : ∀ error, e = .pool error → error = .exhausted ∧ ∃ i : UInt32,
    r.pool.1.capacity ≤ i.toNat ∧
      (i ∈ r.freeSessionIndices ∨ r.freeSessionIndices = [] ∧ i = r.nextSessionIndex)

variable {r : ClawVpnSessionRegistry}

/-- The index of a new session is the last free one, or a new one if none is free. -/
theorem chooseIndex_eq_ok {index nextIndex : UInt32}
    (h : r.chooseIndex r.freeSessionIndices.getLast? = .ok (index, nextIndex)) :
    r.freeSessionIndices = r.freeSessionIndices.dropLast ++ [index] ∧
        nextIndex = r.nextSessionIndex ∨
      r.freeSessionIndices = [] ∧ index = r.nextSessionIndex ∧
        nextIndex.toNat = r.nextSessionIndex.toNat + 1 := by
  cases hlast : r.freeSessionIndices.getLast? with
  | some i =>
    rw [hlast] at h
    cases h
    exact .inl ⟨(List.dropLast_append_getLast? index hlast).symm, rfl⟩
  | none =>
    rw [hlast] at h
    obtain ⟨next, hnext, hpair⟩ := Option.map_eq_some_iff.mp (okOr_eq_ok.mp h)
    cases hpair
    exact .inr ⟨List.getLast?_eq_none_iff.mp hlast, rfl, checkedAdd32_eq_some.mp hnext⟩

/-- Only a registry without free indices runs out of them. -/
theorem chooseIndex_eq_error {e : ClawVpnSessionRegistryError}
    (h : r.chooseIndex r.freeSessionIndices.getLast? = .error e) :
    r.freeSessionIndices = [] ∧ ∀ error, e ≠ .pool error := by
  cases hlast : r.freeSessionIndices.getLast? with
  | some i =>
    rw [hlast] at h
    cases h
  | none =>
    rw [hlast] at h
    refine ⟨List.getLast?_eq_none_iff.mp hlast, ?_⟩
    rintro error rfl
    exact absurd h (Avoids.okOr (by nofun))

/-- A failed allocation pushes the popped index back. -/
theorem dropLast_append_toList (xs : List UInt32) : xs.dropLast ++ xs.getLast?.toList = xs := by
  cases h : xs.getLast? with
  | none => rw [List.getLast?_eq_none_iff.mp h]; rfl
  | some x => exact List.dropLast_append_getLast? x h

/-- Opening a session. -/
theorem openSession_ends (r : ClawVpnSessionRegistry) (key : ClawVpnAclKey) :
    Ends (· = r) (openSession key) (Opened r key) (Refused r) := by
  refine .get_bind fun s hs => ?_
  subst s
  refine .require_bind (fun hauthorized => ?_) fun s hs => ⟨hs, nofun⟩
  refine .require_bind (fun hmember => ?_) fun s hs => ⟨hs, nofun⟩
  refine .require_bind (fun hclaw => ?_) fun s hs => ⟨hs, nofun⟩
  refine .ofExcept_bind (fun nextId hnextId => ?_) fun e he s hs => ⟨hs, ?_⟩
  swap
  · rintro error rfl
    exact absurd he (Avoids.okOr (by nofun))
  have hnext := checkedAdd_one_eq_some.mp (okOr_eq_ok.mp hnextId)
  refine .update_bind (M := (· = { r with freeSessionIndices := r.freeSessionIndices.dropLast }))
    (fun s hs => by rw [hs]) ?_
  refine .ofExcept_bind (fun ⟨index, nextIndex⟩ hindex => ?_) fun e he s hs => ?_
  swap
  · obtain ⟨hfree, hne⟩ := chooseIndex_eq_error he
    refine ⟨?_, fun error herror => absurd herror (hne error)⟩
    rw [hs, hfree, List.dropLast_nil, ← hfree]
  have hchoice := chooseIndex_eq_ok hindex
  dsimp only
  cases haddrs : r.pool.allocatePair index with
  | error error =>
    refine .update_bind (M := (· = r)) ?_ (.throw ?_)
    · rintro _ rfl
      rw [dropLast_append_toList]
    · rintro s hs
      refine ⟨hs, ?_⟩
      rintro _ ⟨⟩
      obtain ⟨hfull, rfl⟩ := ClawVpnIpv4Pool.allocatePair_eq_error.mp haddrs
      refine ⟨rfl, index, hfull, ?_⟩
      rcases hchoice with ⟨hfree, -⟩ | ⟨hfree, hindex, -⟩
      · exact .inl (hfree ▸ List.mem_concat_self)
      · exact .inr ⟨hfree, hindex⟩
  | ok addrs =>
    rintro _ rfl
    refine ⟨rfl, rfl, hauthorized, Nat.lt_of_not_le hmember, Nat.lt_of_not_le hclaw, haddrs,
      nextId, nextIndex, r.freeSessionIndices.dropLast, rfl, hnext, ?_⟩
    rcases hchoice with ⟨hfree, hindex⟩ | ⟨hfree, hindex, hnextIndex⟩
    · exact .inl ⟨hfree, hindex⟩
    · exact .inr ⟨hfree, by rw [hfree]; rfl, hindex, hnextIndex⟩

variable {sessionIds : List ClawVpnSessionId}

theorem ClawVpnSessionRegistry.closeAll_cons {sessionId : ClawVpnSessionId} :
    (closeAll (sessionId :: sessionIds) r).2 = (closeAll sessionIds (r.close sessionId).2).2 := by
  rw [closeAll]
  rcases r.close sessionId with ⟨_ | _, _⟩ <;> rfl

namespace Tidy

variable {t : Trace} {session : ClawVpnSession}

/-- Nothing here depends on what is granted. -/
theorem withAcl (h : Tidy t) (acl : ClawVpnAcl) :
    Tidy { t with registry := { t.registry with acl := acl } } :=
  ⟨h.indices, h.capacity, h.addrs, h.memberClaw, h.claw, h.distinct, h.opened, h.ids, h.below⟩

theorem remove (h : Tidy t) (hsession : session ∈ t.registry.sessions) :
    Tidy { t with registry := t.registry.remove session } := by
  have hsub : (t.registry.remove session).sessions.Sublist t.registry.sessions :=
    List.filter_sublist
  have hperm := perm_cons_filter_ne h.distinct hsession
  refine ⟨?_, h.capacity, fun s hs => h.addrs s (hsub.subset hs),
    fun key => (hsub.countP_le).trans (h.memberClaw key),
    fun clawId => (hsub.countP_le).trans (h.claw clawId), h.distinct.sublist (hsub.map _),
    fun s hs => h.opened s (hsub.subset hs), h.ids, h.below⟩
  have hindices := h.indices.congr (hperm.map (·.sessionIndex.toNat)).symm (.refl _)
  have hrelease := Recycled.release hindices
  simpa only [ClawVpnSessionRegistry.remove, List.map_append, List.map_cons, List.map_nil] using
    hrelease

theorem close (h : Tidy t) (sessionId : ClawVpnSessionId) :
    Tidy { t with registry := (t.registry.close sessionId).2 } := by
  unfold ClawVpnSessionRegistry.close
  cases hfind : t.registry.find? sessionId with
  | none => exact h
  | some session => exact h.remove (List.mem_of_find?_eq_some hfind)

theorem closeAll {sessionIds : List ClawVpnSessionId} (h : Tidy t) :
    Tidy { t with registry := (closeAll sessionIds t.registry).2 } := by
  induction sessionIds generalizing t with
  | nil => exact h
  | cons sessionId sessionIds ih =>
    rw [closeAll_cons]
    exact ih (h.close sessionId)

end Tidy

variable {session : ClawVpnSession}

/-- A closed session is not open, and no other session is opened. -/
theorem of_mem_sessions_close {sessionId : ClawVpnSessionId}
    (h : session ∈ (r.close sessionId).2.sessions) :
    session ∈ r.sessions ∧ session.id ≠ sessionId := by
  unfold close at h
  cases hfind : r.find? sessionId with
  | none =>
    rw [hfind] at h
    exact ⟨h, by simpa using List.find?_eq_none.mp hfind session h⟩
  | some closed =>
    rw [hfind] at h
    obtain ⟨hmem, hne⟩ := List.mem_filter.mp h
    have hid : closed.id = sessionId := by simpa using List.find?_some hfind
    exact ⟨hmem, hid ▸ of_decide_eq_true hne⟩

theorem of_mem_sessions_closeAll (h : session ∈ (closeAll sessionIds r).2.sessions) :
    session ∈ r.sessions ∧ session.id ∉ sessionIds := by
  induction sessionIds generalizing r with
  | nil => exact ⟨h, List.not_mem_nil⟩
  | cons sessionId sessionIds ih =>
    rw [closeAll_cons] at h
    obtain ⟨hclose, hnot⟩ := ih h
    obtain ⟨hmem, hne⟩ := of_mem_sessions_close hclose
    exact ⟨hmem, fun hin => (List.mem_cons.mp hin).elim hne hnot⟩

/-- Closing a session changes nothing but the sessions and the free indices. -/
theorem close_frame (r : ClawVpnSessionRegistry) (sessionId : ClawVpnSessionId) :
    ∃ sessions free, (r.close sessionId).2 =
      { r with sessions := sessions, freeSessionIndices := free } := by
  unfold close
  split
  · exact ⟨_, _, rfl⟩
  · exact ⟨r.sessions, r.freeSessionIndices, rfl⟩

theorem closeAll_frame (sessionIds : List ClawVpnSessionId) (r : ClawVpnSessionRegistry) :
    ∃ sessions free, (closeAll sessionIds r).2 =
      { r with sessions := sessions, freeSessionIndices := free } := by
  induction sessionIds generalizing r with
  | nil => exact ⟨r.sessions, r.freeSessionIndices, rfl⟩
  | cons sessionId sessionIds ih =>
    obtain ⟨sessions, free, hclose⟩ := close_frame r sessionId
    obtain ⟨sessions', free', hrest⟩ := ih (r.close sessionId).2
    rw [closeAll_cons, hrest, hclose]
    exact ⟨sessions', free', rfl⟩

/-- The counts of one more session stay within a limit that was not reached. -/
theorem countP_cons_le {sessions : List ClawVpnSession} {limit : ℕ} {p : ClawVpnSession → Bool}
    (hle : sessions.countP p ≤ limit) (hlt : p session → sessions.countP p < limit) :
    (session :: sessions).countP p ≤ limit := by
  cases hp : p session with
  | false =>
    rw [List.countP_cons_of_neg (by simp [hp])]
    exact hle
  | true =>
    rw [List.countP_cons_of_pos hp]
    exact hlt hp

/-- An entry that was not there is added in front. -/
theorem insert_fresh (hfresh : ∀ s ∈ r.sessions, s.id ≠ session.id) :
    r.insert session = { r with sessions := session :: r.sessions } := by
  have hkeep : r.sessions.filter (·.id ≠ session.id) = r.sessions :=
    List.filter_eq_self.mpr fun s hs => decide_eq_true (hfresh s hs)
  rw [ClawVpnSessionRegistry.insert, hkeep]

/-- The next index stays within the capacity when a session is opened. -/
theorem Opened.indices {r' : ClawVpnSessionRegistry} {key : ClawVpnAclKey}
    (h : Opened r key session r')
    (hindices : Recycled (r.sessions.map (·.sessionIndex.toNat)) (r.freeSessionIndices.map
      (·.toNat)) r.nextSessionIndex.toNat)
    (hcapacity : r.nextSessionIndex.toNat ≤ r.pool.1.capacity) :
    Recycled ((session :: r.sessions).map (·.sessionIndex.toNat))
        (r'.freeSessionIndices.map (·.toNat)) r'.nextSessionIndex.toNat ∧
      r'.nextSessionIndex.toNat ≤ r.pool.1.capacity := by
  have hroom := (ClawVpnIpv4Pool.allocatePair_eq_ok.mp h.addrs).1
  obtain ⟨nextId, nextIndex, free, rfl, -, hindex | hindex⟩ := h.rest
  · obtain ⟨hfree, rfl⟩ := hindex
    rw [hfree, List.map_append] at hindices
    exact ⟨hindices.reuse, hcapacity⟩
  · obtain ⟨hfree, rfl, hsession, hnext⟩ := hindex
    rw [hfree] at hindices
    refine ⟨?_, by rw [hnext, ← hsession]; exact hroom⟩
    rw [List.map_cons, hsession, hnext]
    exact hindices.fresh

namespace Sound

variable {t : Trace}

variable (h : Sound t)

include h

theorem openSession {r : ClawVpnSessionRegistry} {key : ClawVpnAclKey} {session : ClawVpnSession} (hopened : Opened t.registry key session r) :
    Sound ⟨r, session :: t.opened⟩ := by
  obtain ⟨hindices, hcapacity⟩ := hopened.indices h.indices h.capacity
  obtain ⟨hid, hkey, hauthorized, hmember, hclaw, haddrs, nextId, nextIndex, free, rfl, hnext, -⟩ :=
    hopened
  have hne : ∀ s ∈ t.opened, s.id ≠ session.id := fun s hs heq => by
    have hlt := h.below s hs
    rw [heq, hid] at hlt
    exact Nat.lt_irrefl _ hlt
  rw [insert_fresh fun s hs => hne s (h.opened s hs)] at hindices ⊢
  refine ⟨⟨?_, hcapacity, ?_, fun key' => ?_, fun clawId => ?_, ?_, ?_, ?_, ?_⟩, ?_⟩
  · exact hindices
  · exact List.forall_mem_cons.mpr ⟨haddrs, h.addrs⟩
  · refine countP_cons_le (h.memberClaw key') fun hsame => ?_
    obtain ⟨hm, hc⟩ := of_decide_eq_true hsame
    have hcount : t.registry.sessionsForMemberClaw key' = t.registry.sessionsForMemberClaw key := by
      unfold sessionsForMemberClaw sameMemberClaw
      rw [← hm, ← hc, hkey]
    exact hcount.trans_lt hmember
  · refine countP_cons_le (h.claw clawId) fun hsame => ?_
    have hc : key.clawId = clawId := hkey ▸ of_decide_eq_true hsame
    exact hc ▸ hclaw
  · refine List.nodup_cons.mpr ⟨fun hin => ?_, h.distinct⟩
    obtain ⟨s, hs, hsid⟩ := List.mem_map.mp hin
    exact hne s (h.opened s hs) hsid
  · exact List.forall_mem_cons.mpr
      ⟨List.mem_cons_self, fun s hs => List.mem_cons_of_mem _ (h.opened s hs)⟩
  · refine List.nodup_cons.mpr ⟨fun hin => ?_, h.ids⟩
    obtain ⟨s, hs, hsid⟩ := List.mem_map.mp hin
    exact hne s hs hsid
  · refine List.forall_mem_cons.mpr ⟨?_, fun s hs => ?_⟩
    · rw [hid]
      exact hnext ▸ Nat.lt_succ_self _
    · exact hnext ▸ Nat.lt_succ_of_lt (h.below s hs)
  · refine List.forall_mem_cons.mpr ⟨?_, h.granted⟩
    rw [hkey]
    exact hauthorized

theorem grant (key : ClawVpnAclKey) : Sound { t with registry := (t.registry.grant key).2 } := by
  refine ⟨h.withAcl _, fun session hsession => ?_⟩
  have hgranted := of_decide_eq_true (h.granted session hsession)
  simp only [ClawVpnSessionRegistry.grant, ClawVpnAcl.grant]
  split
  · exact decide_eq_true hgranted
  · exact decide_eq_true (List.mem_cons_of_mem _ hgranted)

theorem close (sessionId : ClawVpnSessionId) :
    Sound { t with registry := (t.registry.close sessionId).2 } := by
  refine ⟨h.toTidy.close sessionId, fun session hsession => ?_⟩
  obtain ⟨sessions, free, hframe⟩ := close_frame t.registry sessionId
  have hgranted := h.granted session (of_mem_sessions_close hsession).1
  rw [hframe]
  exact hgranted

theorem revoke (order : List ClawVpnSessionId) (key : ClawVpnAclKey) :
    Sound { t with registry := (t.registry.revoke order key).2 } := by
  refine ⟨(h.withAcl _).closeAll, fun session hsession => ?_⟩
  obtain ⟨hmem, hid⟩ := of_mem_sessions_closeAll hsession
  obtain ⟨sessions, free, hframe⟩ := closeAll_frame
    (if order.isPerm (t.registry.sessionIdsOf key) then order else t.registry.sessionIdsOf key)
    { t.registry with acl := (t.registry.acl.revoke key).2 }
  have hacl : (t.registry.revoke order key).2.acl = (t.registry.acl.revoke key).2 :=
    congrArg acl hframe
  have hkey : session.aclKey ≠ key := by
    intro heq
    have hlisted : session.id ∈ t.registry.sessionIdsOf key :=
      List.mem_map_of_mem (List.mem_filter.mpr ⟨hmem, decide_eq_true heq⟩)
    refine hid ?_
    split
    · rename_i hperm
      exact (List.isPerm_iff.mp hperm).mem_iff.mpr hlisted
    · exact hlisted
  rw [hacl]
  exact decide_eq_true (List.mem_filter.mpr
    ⟨of_decide_eq_true (h.granted session hmem), decide_eq_true hkey⟩)

theorem perform (call : Call) : Sound (ClawVpn.perform t call) := by
  cases call with
  | grant key => exact h.grant key
  | close sessionId => exact h.close sessionId
  | revoke order key => exact h.revoke order key
  | openSession key =>
    have hends := openSession_ends t.registry key t.registry rfl
    rw [ClawVpn.perform]
    generalize (ClawVpnSessionRegistry.openSession key).exec t.registry = result at hends ⊢
    obtain ⟨e | session, r⟩ := result
    · obtain ⟨rfl, -⟩ := hends
      exact h
    · exact h.openSession hends

end Sound

end Theyos.ClawVpn

import Theyos.Core.Machine.Guard

/-!
# The pair-machine window and its snapshot

A pairing stands in memory and in a snapshot on disk. A transition decides on the window in memory,
changes it and persists it. Three of them take the change back when the persist fails, the others
keep it; a persist fails before or after the new snapshot is in place.
-/

namespace Theyos.PairMachine

open Machine

/-- A byte string of a snapshot. -/
abbrev ByteBuf := List UInt8

/-- How far a pairing is. -/
inductive PairMachineState where
  | idle
  | staging
  | awaitingOwner
  | committed
  | aborted
  deriving DecidableEq, Repr

/-- How a candidate is reached. -/
inductive JoinTransport where
  | tailscale
  | lan
  deriving DecidableEq, Repr

/-- The claim of the one owner approval in flight. -/
structure PairMachineApprovalClaim where
  claimId : ByteBuf
  ownerEventCursor : UInt64
  claimedAt : UInt64
  deriving DecidableEq, Repr

/-- The window, in memory and as it is written; the defaults are those of an idle one. -/
structure PairMachineWindowSnapshot where
  version : UInt8 := 2
  state : PairMachineState := .idle
  mPub : Option ByteBuf := none
  nonce : Option ByteBuf := none
  expiry : Option ℕ := none
  transport : Option JoinTransport := none
  addrHint : Option String := none
  fingerprint : Option String := none
  ownerEventCursor : Option UInt64 := none
  cachedJoinRequest : Option ByteBuf := none
  cachedResponse : Option ByteBuf := none
  anchorSecret : Option ByteBuf := none
  pinnedHhPub : Option ByteBuf := none
  pinnedHhId : Option String := none
  approvalClaim : Option PairMachineApprovalClaim := none
  lifecycleGeneration : Option ByteBuf := none
  /-- The key and the identifier of a household are pinned together. -/
  pinned : pinnedHhPub.isSome = pinnedHhId.isSome := by rfl
  deriving DecidableEq, Repr

/-- Why a transition fails. -/
inductive WindowError where
  | storage
  | transition (source target : PairMachineState)
  | alreadyActive
  | mismatchedCeremony
  | alreadyClaimed
  deriving DecidableEq, Repr

/-- A transition and what it is called with. `enterStaging` has the reading of its clock, and
`noteCommitted` is the write of the other path with the note that follows it. -/
inductive Request where
  | enterStaging (mPub nonce : ByteBuf) (transport : JoinTransport) (addrHint fingerprint : String)
      (cachedJoinRequest : ByteBuf) (ttlSeconds : ℕ) (anchorSecret : Option ByteBuf) (now : Option ℕ)
  | bindLifecycleGeneration (generation : ByteBuf)
  | pinHouseholdAnchor (hhId : String) (hhPub : ByteBuf)
  | enterAwaitingOwner (ownerEventCursor : UInt64)
  | claimOwnerApproval (ownerEventCursor : UInt64) (claimId : ByteBuf) (claimedAt : UInt64)
  | enterCommitted (cachedResponse : ByteBuf)
  | noteCommitted (cachedResponse : ByteBuf)
  | enterAborted
  | returnToIdle

namespace PairMachineWindowSnapshot

section

variable (w : PairMachineWindowSnapshot)

/-- A pairing is under way. -/
def active : Bool := w.state ∈ [.staging, .awaitingOwner]

/-- The window with its response. -/
def commit (response : ByteBuf) : PairMachineWindowSnapshot :=
  { w with state := .committed, cachedResponse := some response, approvalClaim := none }

variable (generation : ByteBuf)

/-- The idle window of a namespace. -/
def idleForGeneration : PairMachineWindowSnapshot := { lifecycleGeneration := some generation }

/-- `validate_snapshot_generation`: the snapshot is one of the namespace. -/
def valid : Bool :=
  w.version = 2 ∧ w.lifecycleGeneration = some generation

/-- What a transition makes of the window before it persists it, nothing where it answers at
once. -/
def attempt : Request → Except WindowError (Option PairMachineWindowSnapshot)
  | .enterStaging mPub nonce transport addrHint fingerprint joinRequest ttl anchorSecret now => do
    require (!w.active) .alreadyActive
    let now ← okOr now .storage
    pure (some {
      state := .staging, mPub := some mPub, nonce := some nonce
      expiry := some (min (now + ttl) (UInt64.size - 1)), transport := some transport
      addrHint := some addrHint, fingerprint := some fingerprint
      cachedJoinRequest := some joinRequest, anchorSecret := anchorSecret
      lifecycleGeneration := some generation })
  | .bindLifecycleGeneration token => do
    require w.active (.transition w.state w.state)
    match w.lifecycleGeneration with
    | some existing => do
      require (existing = token) .mismatchedCeremony
      pure none
    | none => pure (some { w with lifecycleGeneration := some token })
  | .pinHouseholdAnchor hhId hhPub => do
    require w.active (.transition w.state w.state)
    match w.pinnedHhPub with
    | some prevPub => do
      require (prevPub = hhPub ∧ w.pinnedHhId = some hhId) .mismatchedCeremony
      pure none
    | none => pure (some
        { w with pinnedHhPub := some hhPub, pinnedHhId := some hhId, pinned := rfl })
  | .enterAwaitingOwner cursor => do
    require (w.state = .staging) (.transition w.state .awaitingOwner)
    pure (some
      { w with state := .awaitingOwner, ownerEventCursor := some cursor, approvalClaim := none })
  | .claimOwnerApproval cursor claimId claimedAt => do
    require (w.state = .awaitingOwner ∧ w.ownerEventCursor = some cursor) .mismatchedCeremony
    require w.approvalClaim.isNone .alreadyClaimed
    pure (some { w with approvalClaim := some ⟨claimId, cursor, claimedAt⟩ })
  | .enterCommitted response => do
    require w.active (.transition w.state .committed)
    pure (some (w.commit response))
  | .noteCommitted response => pure (some (w.commit response))
  | .enterAborted => pure (some { w with state := .aborted, approvalClaim := none })
  | .returnToIdle => pure (some (idleForGeneration generation))

end

/-- What a failed persist of a new window leaves in memory. -/
def afterFailure (w next : PairMachineWindowSnapshot) : Request → PairMachineWindowSnapshot
  | .bindLifecycleGeneration _ => { next with lifecycleGeneration := none }
  | .pinHouseholdAnchor .. => { next with pinnedHhPub := none, pinnedHhId := none, pinned := rfl }
  | .claimOwnerApproval .. => { next with approvalClaim := none }
  | .noteCommitted _ => w
  | _ => next

end PairMachineWindowSnapshot

/-- How a write of the snapshot ends: done, or failed before or after the rename. -/
inductive Persist where
  | landed
  | noEffect
  | renamed
  deriving DecidableEq, Repr

/-- A transition that leaves memory as it was when the persist fails. -/
def Request.restores : Request → Bool
  | .bindLifecycleGeneration _ | .pinHouseholdAnchor .. | .claimOwnerApproval ..
  | .noteCommitted _ => true
  | _ => false

/-- The persist does not fail, or leaves on disk what the transition leaves in memory. -/
def Persist.fits (r : Request) : Persist → Bool
  | .landed => true
  | .noEffect => r.restores
  | .renamed => !r.restores

/-- The window in memory and the snapshot on disk, if one was written. -/
structure Window where
  memory : PairMachineWindowSnapshot
  disk : Option PairMachineWindowSnapshot
  deriving DecidableEq, Repr

namespace Window

variable (generation : ByteBuf)

/-- What a process loads; it drops a claim unless a Phase 3 marker stands beside the snapshot. -/
def load (disk : Option PairMachineWindowSnapshot) (marked : Bool) :
    Option PairMachineWindowSnapshot :=
  let s := disk.getD (.idleForGeneration generation)
  if s.valid generation then some (if marked then s else { s with approvalClaim := none })
  else none

/-- `with_namespace`, which writes the snapshot back where it dropped a claim. -/
def withNamespace (disk : Option PairMachineWindowSnapshot) (marked : Bool) : Option Window :=
  (load generation disk marked).map fun s => ⟨s, disk.map fun _ => s⟩

/-- A transition. A snapshot that is not one of the namespace is not written. -/
def call (w : Window) (r : Request) (persist : Persist) : Except WindowError Unit × Window :=
  match w.memory.attempt generation r with
  | .error e => (.error e, w)
  | .ok none => (.ok (), w)
  | .ok (some next) =>
    match if next.valid generation then persist else .noEffect with
    | .landed => (.ok (), ⟨next, some next⟩)
    | .noEffect => (.error .storage, ⟨w.memory.afterFailure next r, w.disk⟩)
    | .renamed => (.error .storage, ⟨w.memory.afterFailure next r, some next⟩)

/-- The window after some transitions. -/
def run (w : Window) (calls : List (Request × Persist)) : Window :=
  calls.foldl (fun w c => (w.call generation c.1 c.2).2) w

variable {generation}

/-- Memory is a snapshot of the namespace and what is on disk. -/
structure Follows (generation : ByteBuf) (w : Window) : Prop where
  valid : w.memory.valid generation = true
  disk : w.disk.getD (.idleForGeneration generation) = w.memory

end Window

open PairMachineWindowSnapshot in
/-- A transition keeps the namespace. One that restores memory undoes all its change and does not
look at a claim; another undoes nothing and leaves no claim. -/
theorem attempt_eq_ok {generation : ByteBuf} {w next : PairMachineWindowSnapshot} {r : Request}
    (h : w.attempt generation r = .ok (some next)) (hvalid : w.valid generation = true) :
    next.valid generation = true ∧ if r.restores then w.afterFailure next r = w ∧
        ∃ o, { w with approvalClaim := none }.attempt generation r = .ok o
      else w.afterFailure next r = next ∧ next.approvalClaim = none := by
  simp only [valid, decide_eq_true_eq] at hvalid
  cases r with
  | bindLifecycleGeneration token =>
    simp only [attempt, hvalid.2, eq_ok_iff, reduceCtorEq, and_false] at h
  | pinHouseholdAnchor hhId hhPub =>
    obtain hpin | ⟨prevPub, hpin⟩ := Option.eq_none_or_eq_some w.pinnedHhPub
    · have hid : w.pinnedHhId = none := by simpa [hpin] using w.pinned
      simp only [attempt, hpin, eq_ok_iff, Option.some.injEq] at h ⊢
      obtain ⟨hactive, rfl⟩ := h
      exact ⟨by simpa [valid] using hvalid, by simp [afterFailure, ← hpin, ← hid], _, hactive, rfl⟩
    · simp only [attempt, hpin, eq_ok_iff, reduceCtorEq, and_false] at h
  | claimOwnerApproval cursor claimId claimedAt =>
    simp only [attempt, eq_ok_iff, Option.some.injEq] at h ⊢
    obtain ⟨hawaits, hnone, rfl⟩ := h
    rw [Option.isNone_iff_eq_none] at hnone
    exact ⟨by simpa [valid] using hvalid, by simp [afterFailure, ← hnone], _, hawaits, rfl, rfl⟩
  | _ =>
    simp only [attempt, eq_ok_iff, Option.some.injEq] at h ⊢
    grind [valid, afterFailure, Request.restores, commit, idleForGeneration]

namespace Window

variable {generation : ByteBuf} {w : Window} {r : Request} {persist : Persist}

theorem Follows.load (h : Follows generation w) (marked : Bool) : load generation w.disk marked =
    some (if marked then w.memory else { w.memory with approvalClaim := none }) := by
  simp only [Window.load, h.disk, h.valid, if_true]

/-- A process opens its window on what is on disk. -/
theorem Follows.of_withNamespace {disk : Option PairMachineWindowSnapshot} {marked : Bool}
    (h : withNamespace generation disk marked = some w) : Follows generation w := by
  obtain ⟨s, hload, rfl⟩ := Option.map_eq_some_iff.1 h
  simp only [Window.load, Option.ite_none_right_eq_some, Option.some.injEq] at hload
  obtain ⟨hvalid, rfl⟩ := hload
  constructor
  · cases marked <;> exact hvalid
  · cases disk <;> cases marked <;> rfl

/-- A transition keeps memory and disk equal. One that fails changed nothing, and then restores
memory if it got as far as its persist, or leaves no claim. -/
theorem Follows.call (h : Follows generation w) (hfits : persist.fits r = true) :
    Follows generation (w.call generation r persist).2 ∧
      ∀ e, (w.call generation r persist).1 = .error e →
        (w.call generation r persist).2 = w ∧
            (∀ next, w.memory.attempt generation r = .ok (some next) → r.restores = true) ∨
          (w.call generation r persist).2.memory.approvalClaim = none := by
  unfold Window.call
  rcases hattempt : w.memory.attempt generation r with e | _ | next
  · exact ⟨h, fun _ _ => .inl ⟨rfl, by rintro _ ⟨⟩⟩⟩
  · exact ⟨h, by rintro _ ⟨⟩⟩
  · obtain ⟨hvalid, hundo⟩ := attempt_eq_ok hattempt h.valid
    simp only [hvalid, if_true]
    cases persist with
    | landed => exact ⟨⟨hvalid, rfl⟩, by rintro _ ⟨⟩⟩
    | noEffect =>
      rw [if_pos (show r.restores = true from hfits)] at hundo
      simp only [hundo.1]
      exact ⟨h, fun _ _ => .inl ⟨trivial, fun _ _ => hfits⟩⟩
    | renamed =>
      rw [if_neg (by simpa [Persist.fits] using hfits)] at hundo
      simp only [hundo.1]
      exact ⟨⟨hvalid, rfl⟩, fun _ _ => .inr hundo.2⟩

/-- So do transitions one after another. -/
theorem Follows.run (h : Follows generation w) {calls : List (Request × Persist)}
    (hcalls : ∀ c ∈ calls, c.2.fits c.1 = true) : Follows generation (w.run generation calls) :=
  List.foldlRecOn calls _ h fun _ h c hc => (h.call (hcalls c hc)).1

/-- The request of a candidate on the local network. -/
def smallStaging : Request :=
  .enterStaging [2] [7] .lan "m2:8091" "amber" [1] 300 none (some 1000)

/-- A staging whose persist fails without effect stays in memory: the request is refused when it
is repeated, while after a restart it is accepted. -/
theorem unpersisted_staging_blocks :
    let idle := PairMachineWindowSnapshot.idleForGeneration [9]
    let w := (Window.mk idle none).call [9] smallStaging .noEffect
    withNamespace [9] none false = some ⟨idle, none⟩ ∧ w.1 = .error .storage ∧
      w.2.memory ≠ idle ∧ load [9] w.2.disk false = some idle ∧
      w.2.memory.attempt [9] smallStaging = .error .alreadyActive ∧
      ∃ next, idle.attempt [9] smallStaging = .ok (some next) := by
  exact ⟨by decide, by decide, by decide, by decide, by decide, _, rfl⟩

/-- Where a persist that fails leaves on disk what its transition leaves in memory, a transition
that fails leaves memory as it was or as the next process loads it, and after a failed persist the
request is accepted again exactly when it is after a restart. -/
theorem failed_transition_follows_disk {disk : Option PairMachineWindowSnapshot} {opened : Bool}
    {calls : List (Request × Persist)} {e : WindowError} {w₀ w w' : Window}
    (hopen : withNamespace generation disk opened = some w₀)
    (hcalls : ∀ c ∈ calls, c.2.fits c.1 = true) (hrun : run generation w₀ calls = w)
    (hfits : persist.fits r = true) (hcall : w.call generation r persist = (.error e, w'))
    (marked : Bool) :
    (w'.memory = w.memory ∨ load generation w'.disk marked = some w'.memory) ∧
      ∀ next, w.memory.attempt generation r = .ok (some next) →
        ∃ s, load generation w'.disk marked = some s ∧
          ((∃ o, w'.memory.attempt generation r = .ok o) ↔ ∃ o, s.attempt generation r = .ok o) := by
  have h : Follows generation w := hrun ▸ (Follows.of_withNamespace hopen).run hcalls
  obtain ⟨hfollows, herror⟩ := h.call hfits
  rw [hcall] at hfollows herror
  rcases herror e rfl with ⟨rfl, hrestores⟩ | hnone
  · refine ⟨.inl rfl, fun next hnext => ⟨_, h.load marked, ?_⟩⟩
    have hundo := (attempt_eq_ok hnext h.valid).2
    rw [if_pos (hrestores next hnext)] at hundo
    cases marked with
    | true => exact Iff.rfl
    | false => exact iff_of_true ⟨_, hnext⟩ hundo.2
  · have hload : load generation w'.disk marked = some w'.memory := by
      rw [hfollows.load, ← hnone, ite_self]
    exact ⟨.inr hload, fun _ _ => ⟨_, hload, Iff.rfl⟩⟩

/-- A staged pairing whose pin was not persisted is pinned again as after a restart. -/
theorem failed_transition_follows_disk_pinned :
    let pin := Request.pinHouseholdAnchor "hh_a" [3]
    let w := run [9] ⟨.idleForGeneration [9], none⟩ [(smallStaging, .landed)]
    let w' := (w.call [9] pin .noEffect).2
    (w.call [9] pin .noEffect).1 = .error .storage ∧ ∃ s, load [9] w'.disk true = some s ∧
      ((∃ o, w'.memory.attempt [9] pin = .ok o) ↔ ∃ o, s.attempt [9] pin = .ok o) := by
  refine ⟨by decide, ?_⟩
  exact (@failed_transition_follows_disk [9] (.pinHouseholdAnchor "hh_a" [3]) .noEffect none false
    [(smallStaging, .landed)] _ _ _ _ rfl (by decide) rfl rfl rfl true).2 _ rfl

end Window

end Theyos.PairMachine

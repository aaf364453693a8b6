import Theyos.Core.Machine.Conduct
import Theyos.Core.Store.Volatile

/-!
# The owner authority and its projection

The authority is committed by one file, and its owner certificate is written to a second one
afterwards. Loading refuses an authority whose certificate is not the one in the second file, so
a change of certificate must not stop between the two.
-/

namespace Theyos.OwnerAuth

open Machine

/-- The owner's certificate, and what else is committed with it. -/
structure HouseholdAuthState (κ ω : Type) where
  ownerPersonCert : κ
  rest : ω
  deriving DecidableEq

inductive OwnerAuthError where
  | storage (mayHaveTakenEffect : Bool)
  | protocol (detail : String)
  | ownerWebauthn (detail : String)
  | ownerWebauthnRecovery (detail : String)
  | invalidState (detail : String)

/-- How a write ends: before the rename, after it, or with the directory synced. -/
inductive Write where
  | failed
  | unsynced
  | synced
  deriving DecidableEq

/-- `household_auth_state.cbor` and `owner_person_cert.cbor`, in one directory. -/
structure Disk (κ ω : Type) where
  auth : Volatile (Option (HouseholdAuthState κ ω))
  cert : Volatile (Option κ)

variable {κ ω : Type}

namespace Disk

variable (d : Disk κ ω)

def sync : Disk κ ω := ⟨d.auth.sync, d.cert.sync⟩

/-- Write the certificate; a failure is only logged. -/
def writeOwnerCertProjection (cert : κ) : Write → Disk κ ω
  | .failed => d
  | .unsynced => { d with cert := d.cert.replace (some cert) }
  | .synced => sync { d with cert := d.cert.replace (some cert) }

/-- Save an authority; without a second write the process ends between the two. -/
def save (next : HouseholdAuthState κ ω) (write : Write) (projection : Option Write) :
    Except OwnerAuthError Unit × Disk κ ω :=
  let renamed : Disk κ ω := { d with auth := d.auth.replace (some next) }
  match write with
  | .failed => (.error (.storage false), d)
  | .unsynced => (.error (.storage true), renamed)
  | .synced => (.ok (), projection.elim renamed.sync
      (renamed.sync.writeOwnerCertProjection next.ownerPersonCert))

/-- Load the authority; a missing certificate is written, one without an authority deleted. -/
def loadOptional [DecidableEq κ]
    (verify : HouseholdAuthState κ ω → Except OwnerAuthError Unit) (write : Write) :
    Except OwnerAuthError (Option (HouseholdAuthState κ ω)) × Disk κ ω :=
  match d.auth.visible, d.cert.visible with
  | none, none => (.ok none, d)
  | some auth, some cert =>
    if auth.ownerPersonCert ≠ cert then
      (.error (.invalidState "owner_person_cert.cbor does not match household_auth_state.cbor"), d)
    else ((verify auth).map fun _ => some auth, d)
  | some auth, none =>
    match verify auth with
    | .error e => (.error e, d)
    | .ok () => (.ok (some auth), d.writeOwnerCertProjection auth.ownerPersonCert write)
  | none, some _ => (.ok none, if write = .failed then d else { d with cert := d.cert.replace none })

/-- The certificates that a loss of power may leave, in either file. -/
def certs : List κ :=
  d.auth.survivors.filterMap (·.map (·.ownerPersonCert)) ++ d.cert.survivors.filterMap id

end Disk

/-- What happens to the files. -/
inductive Action (κ ω : Type) where
  | save (next : HouseholdAuthState κ ω) (write : Write) (projection : Option Write)
  | load (verify : HouseholdAuthState κ ω → Except OwnerAuthError Unit) (write : Write)
  | lose (auth cert : ℕ)

/-- The files, the last authority whose rename was synced, and those renamed since. -/
structure State (κ ω : Type) where
  disk : Disk κ ω := ⟨.settled none, .settled none⟩
  committed : Option (HouseholdAuthState κ ω) := none
  unsure : List (HouseholdAuthState κ ω) := []

/-- One action. -/
def State.next [DecidableEq κ] (s : State κ ω) : Action κ ω → Option (State κ ω)
  | .save next write projection =>
    let (_, disk) := s.disk.save next write projection
    match write with
    | .failed => some { s with disk }
    | .unsynced => some { s with disk, unsure := next :: s.unsure }
    | .synced => some { disk, committed := some next, unsure := [] }
  | .load verify write => some { s with disk := (s.disk.loadOptional verify write).2 }
  | .lose auth cert => some { s with disk := ⟨s.disk.auth.lose auth, s.disk.cert.lose cert⟩ }

/-- A save that renames the authority also writes its certificate and syncs both, or keeps the
certificate that is on disk. -/
def State.Keeping (s : State κ ω) : Action κ ω → Prop
  | .save next write projection => write = .failed ∨ write = .synced ∧ projection = some .synced ∨
    ∀ cert ∈ s.disk.certs, cert = next.ownerPersonCert
  | _ => True

/-- One certificate is in both files, whatever a loss of power leaves of them. -/
def Disk.Agree (d : Disk κ ω) : Prop := ∀ cert ∈ d.certs, ∀ other ∈ d.certs, other = cert

/-- What holds of the files along a run. -/
structure State.Sound (s : State κ ω) : Prop where
  agree : s.disk.Agree
  settled : s.unsure = [] → s.disk.auth = .settled s.committed
  held : ∀ auth ∈ s.disk.auth.survivors, auth = s.committed ∨ auth ∈ s.unsure.map some

theorem State.Sound.of_settled {s : State κ ω} (hagree : s.disk.Agree)
    (hsettled : s.disk.auth = .settled s.committed) : s.Sound := by
  refine ⟨hagree, fun _ => hsettled, fun auth hauth => .inl ?_⟩
  rw [hsettled] at hauth
  exact List.mem_singleton.mp hauth

section

variable {d d' : Disk κ ω} {cert : κ}

theorem Disk.certs_subset (hauth : d'.auth.survivors ⊆ d.auth.survivors)
    (hcert : d'.cert.survivors ⊆ d.cert.survivors) : d'.certs ⊆ d.certs := by
  intro c hc
  rw [certs, List.mem_append, List.mem_filterMap, List.mem_filterMap] at hc ⊢
  rcases hc with ⟨auth, hmem, heq⟩ | ⟨cert, hmem, heq⟩
  · exact .inl ⟨auth, hauth hmem, heq⟩
  · exact .inr ⟨cert, hcert hmem, heq⟩

theorem Disk.certs_sync (d : Disk κ ω) : d.sync.certs ⊆ d.certs :=
  certs_subset (fun _ => Volatile.mem_survivors_sync) fun _ => Volatile.mem_survivors_sync

theorem Disk.Agree.subset (h : d.Agree) (hsub : d'.certs ⊆ d.certs) : d'.Agree :=
  fun c hc other hother => h c (hsub hc) other (hsub hother)

theorem Disk.Agree.of_all (h : ∀ c ∈ d.certs, c = cert) : d.Agree :=
  fun c hc other hother => (h other hother).trans (h c hc).symm

theorem Disk.all_projection (h : ∀ c ∈ d.certs, c = cert) (write : Write) :
    ∀ c ∈ (d.writeOwnerCertProjection cert write).certs, c = cert := by
  have hreplace : ∀ c ∈ Disk.certs { d with cert := d.cert.replace (some cert) }, c = cert := by
    obtain ⟨hauth, hcert⟩ := List.forall_mem_append.mp h
    exact List.forall_mem_append.mpr ⟨hauth, List.forall_mem_cons.mpr ⟨rfl, hcert⟩⟩
  cases write with
  | failed => exact h
  | unsynced => exact hreplace
  | synced => exact fun c hc => hreplace c (certs_sync _ hc)

theorem Disk.auth_projection (cert : κ) (write : Write) :
    (d.writeOwnerCertProjection cert write).auth = d.auth ∨
      (d.writeOwnerCertProjection cert write).auth = d.auth.sync := by
  cases write with
  | failed | unsynced => exact .inl rfl
  | synced => exact .inr rfl

end

/-- A save keeps one certificate in both files, unless it changes it and is interrupted. -/
theorem Disk.Agree.save {d : Disk κ ω} {next : HouseholdAuthState κ ω} {write : Write}
    {projection : Option Write} (h : d.Agree)
    (hkeep : write = .failed ∨ write = .synced ∧ projection = some .synced ∨
      ∀ cert ∈ d.certs, cert = next.ownerPersonCert) :
    (d.save next write projection).2.Agree := by
  rcases hkeep with rfl | ⟨rfl, rfl⟩ | hsame
  · exact h
  · refine Disk.Agree.of_all (?_ : ∀ cert ∈ _, cert = next.ownerPersonCert)
    simp [Disk.save, Disk.writeOwnerCertProjection, Disk.sync, Disk.certs, Volatile.sync,
      Volatile.replace, Volatile.settled, Volatile.survivors]
  · have hrenamed : ∀ cert ∈ Disk.certs { d with auth := d.auth.replace (some next) },
        cert = next.ownerPersonCert :=
      List.forall_mem_cons.mpr ⟨rfl, hsame⟩
    have hsynced := fun cert hcert => hrenamed cert (Disk.certs_sync _ hcert)
    cases write with
    | failed => exact h
    | unsynced => exact .of_all hrenamed
    | synced =>
      cases projection with
      | none => exact .of_all hsynced
      | some write => exact .of_all (Disk.all_projection hsynced write)

section

variable [DecidableEq κ] {s t : State κ ω}

theorem Disk.Agree.load {d : Disk κ ω} (h : d.Agree)
    (verify : HouseholdAuthState κ ω → Except OwnerAuthError Unit) (write : Write) :
    (d.loadOptional verify write).2.Agree := by
  unfold Disk.loadOptional
  split
  · exact h
  · split <;> exact h
  · rename_i auth hauth _
    have hmem : auth.ownerPersonCert ∈ d.certs := by simp [Disk.certs, Volatile.survivors, hauth]
    split
    · exact h
    · exact .of_all (Disk.all_projection (h _ hmem) write)
  · split
    · exact h
    · exact (h.subset (List.Subset.refl _) : Disk.Agree { d with cert := d.cert.replace none })

theorem Disk.loadOptional_auth (d : Disk κ ω)
    (verify : HouseholdAuthState κ ω → Except OwnerAuthError Unit) (write : Write) :
    (d.loadOptional verify write).2.auth = d.auth ∨
      (d.loadOptional verify write).2.auth = d.auth.sync := by
  unfold Disk.loadOptional
  split
  · exact .inl rfl
  · split <;> exact .inl rfl
  · split
    · exact .inl rfl
    · exact Disk.auth_projection _ write
  · split <;> exact .inl rfl

theorem State.Sound.next {action : Action κ ω} (h : s.Sound) (hkeep : s.Keeping action)
    (hnext : s.next action = some t) : t.Sound := by
  cases action with
  | save next write projection =>
    have hagree := h.agree.save hkeep
    cases write with
    | failed =>
      cases hnext
      exact ⟨hagree, h.settled, h.held⟩
    | unsynced =>
      cases hnext
      exact ⟨hagree, nofun, List.forall_mem_cons.mpr ⟨.inr List.mem_cons_self, fun auth hauth =>
        (h.held auth hauth).imp_right (List.mem_cons_of_mem _)⟩⟩
    | synced =>
      cases hnext
      refine .of_settled hagree ?_
      cases projection with
      | none => rfl
      | some write => rcases Disk.auth_projection _ write with heq | heq <;> exact heq
  | load verify write =>
    cases hnext
    have hagree := h.agree.load verify write
    rcases s.disk.loadOptional_auth verify write with heq | heq
    · exact ⟨hagree, fun hsure => heq.trans (h.settled hsure), heq ▸ h.held⟩
    · exact ⟨hagree, fun hsure => heq.trans (congrArg _ (h.settled hsure)),
        heq ▸ fun auth hauth => h.held auth (Volatile.mem_survivors_sync hauth)⟩
  | lose auth cert =>
    cases hnext
    refine ⟨h.agree.subset (Disk.certs_subset ?_ ?_), fun hsure => ?_, fun auth hauth => ?_⟩
    · exact fun _ => Volatile.mem_survivors_lose
    · exact fun _ => Volatile.mem_survivors_lose
    · rw [h.settled hsure]
      cases auth <;> rfl
    · exact h.held auth (Volatile.mem_survivors_lose hauth)

end

/-- A first pairing, and an upgrade that is interrupted after the authority was renamed. -/
def upgradeRun (projection : Option Write) : List (Action ℕ Unit) :=
  [.save ⟨1, ()⟩ .synced (some .synced), .save ⟨2, ()⟩ .synced projection, .lose 0 0]

/-- An interrupted change of the certificate leaves a committed authority that is refused. -/
theorem committed_authority_refused : ∃ s : State ℕ Unit,
    (upgradeRun none).foldlM State.next {} = some s ∧ s.committed = some ⟨2, ()⟩ ∧
      s.unsure = [] ∧ ∃ e, (s.disk.loadOptional (fun _ => .ok ()) .synced).1 = .error e :=
  ⟨_, rfl, rfl, rfl, _, rfl⟩

/-- While a save that is interrupted keeps the certificate on disk, the last committed authority
is loaded whenever it verifies, or one that was renamed after it. -/
theorem committed_authority_loads [DecidableEq κ] {actions : List (Action κ ω)} {s : State κ ω}
    (hkeep : Throughout State.next State.Keeping ({} : State κ ω) actions)
    (hrun : actions.foldlM State.next {} = some s)
    (verify : HouseholdAuthState κ ω → Except OwnerAuthError Unit) (write : Write) :
    (s.unsure = [] → s.disk.auth = .settled s.committed) ∧
      (∀ auth ∈ s.disk.auth.survivors, auth = s.committed ∨ auth ∈ s.unsure.map some) ∧
      (s.disk.auth.visible = none → (s.disk.loadOptional verify write).1 = .ok none) ∧
        ∀ auth, s.disk.auth.visible = some auth → verify auth = .ok () →
          (s.disk.loadOptional verify write).1 = .ok (some auth) := by
  have hsound : s.Sound := hkeep.keeps (fun _ _ _ => State.Sound.next) (.of_settled nofun rfl) hrun
  refine ⟨hsound.settled, hsound.held, fun hnone => ?_, fun auth hauth hverify => ?_⟩
  · unfold Disk.loadOptional
    rw [hnone]
    cases s.disk.cert.visible <;> rfl
  · unfold Disk.loadOptional
    rw [hauth]
    cases hcert : s.disk.cert.visible with
    | none => simp only [hverify]
    | some cert =>
      have hsame : auth.ownerPersonCert = cert := by
        apply hsound.agree <;> simp [Disk.certs, Volatile.survivors, hauth, hcert]
      simp only [hsame, ne_eq, not_true, if_false, hverify]
      rfl

/-- A change of the certificate that is not interrupted is loaded after a loss of power. -/
theorem committed_authority_loads_upgrade : ∃ s : State ℕ Unit,
    (upgradeRun (some .synced)).foldlM State.next {} = some s ∧
      (s.disk.loadOptional (fun _ => .ok ()) .synced).1 = .ok (some ⟨2, ()⟩) := by
  have hkeep : Throughout State.next State.Keeping ({} : State ℕ Unit)
      (upgradeRun (some .synced)) :=
    ⟨.inr (.inl ⟨rfl, rfl⟩), .inr (.inl ⟨rfl, rfl⟩), trivial, trivial⟩
  exact ⟨_, rfl, (committed_authority_loads hkeep rfl _ _).2.2.2 _ rfl rfl⟩

end Theyos.OwnerAuth

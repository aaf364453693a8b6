import Theyos.Core.Bytes.Framing
import Theyos.Models.MeshControl.Record.State

/-!
# Slot names

A slot is named by a digest over all of its fields. The two digest functions are
parameters. What is proved here is that their preimages are unambiguous, so that
two different slots of one record share a name only through a collision of the
digest function itself.
-/

namespace Theyos.MeshControl

/-- The two digest functions the record relies on. -/
structure Hashes where
  sha256 : List UInt8 → Digest
  blake3 : List UInt8 → Digest

/-- The digested form of an identity: both texts behind their lengths, then the channel. -/
def identityPreimage (identity : ControlIdentity) : List UInt8 :=
  beBytes 8 identity.hhId.utf8ByteSize ++ textBytes identity.hhId ++
    beBytes 8 identity.machineId.utf8ByteSize ++ textBytes identity.machineId ++
    [match identity.channel with
      | .dev => (0 : UInt8)
      | .release => 1]

/-- The digest every slot of an identity carries. -/
def identityDigest (H : Hashes) (identity : ControlIdentity) : Digest :=
  H.sha256 (identityPreimage identity)

/-- The text of a purpose inside a slot name. -/
def PurposeId.slotText : PurposeId → String
  | .meshSession => "mesh-session"
  | .rosterSync => "roster-sync"

/-- The text of a backend inside a slot name. -/
def BackendKind.slotText : BackendKind → String
  | .secureEnclave => "se"
  | .tpmSealedSoftware => "tpm"
  | .file => "file"

namespace SlotId

/-- The digested fields of a slot, in order. -/
def fields (s : SlotId) : List (List UInt8) :=
  [s.identityDigest.toList, textBytes s.purpose.slotText, leBytes 8 s.generation.toNat,
    s.txnId.toList, textBytes s.backendInstance.slotText]

/-- The digested bytes of a slot: every field behind its length. -/
def preimage (s : SlotId) : List UInt8 := frames s.fields

/-- The name of a slot. -/
def canonicalId (H : Hashes) (s : SlotId) : String :=
  "mesh-slot.v1." ++ hexText (H.blake3 s.preimage).toList

theorem fields_length_lt (s : SlotId) : ∀ f ∈ s.fields, f.length < 2 ^ 64 := by
  have hp : (textBytes s.purpose.slotText).length < 2 ^ 64 := by
    cases s.purpose <;> decide
  have hb : (textBytes s.backendInstance.slotText).length < 2 ^ 64 := by
    cases s.backendInstance <;> decide
  intro f hf
  simp only [fields, List.mem_cons, List.not_mem_nil, or_false] at hf
  rcases hf with rfl | rfl | rfl | rfl | rfl
  · simp
  · exact hp
  · simp
  · simp
  · exact hb

theorem fields_inj {s t : SlotId} (h : s.fields = t.fields) : s = t := by
  have hpurpose : ∀ p q : PurposeId, textBytes p.slotText = textBytes q.slotText → p = q := by
    intro p q
    cases p <;> cases q <;> decide
  have hbackend : ∀ b c : BackendKind, textBytes b.slotText = textBytes c.slotText → b = c := by
    intro b c
    cases b <;> cases c <;> decide
  simp only [fields, List.cons.injEq, and_true] at h
  obtain ⟨hd, hp, hg, ht, hb⟩ := h
  have hlt (a : NonZeroU64) : a.toNat < 256 ^ 8 := a.get.toNat_lt
  have hgen := NonZeroU64.toNat_inj.mp (leBytes_inj (hlt _) (hlt _) hg)
  cases s
  cases t
  simp only at hd hp ht hb hgen
  rw [Vector.toList_inj.mp hd, hpurpose _ _ hp, hgen, Vector.toList_inj.mp ht, hbackend _ _ hb]

/-- The preimage of a slot name determines the slot. -/
theorem preimage_inj {s t : SlotId} (h : s.preimage = t.preimage) : s = t :=
  fields_inj (frames_inj s.fields_length_lt t.fields_length_lt h)

end SlotId

/-- The slots a record of the given digest and purpose can name. -/
def OwnSlots (digest : Digest) (purpose : PurposeId) : Set SlotId :=
  {s | s.identityDigest = digest ∧ s.purpose = purpose}

/-- The slot digest has no collision among the preimages of one record's own slots. -/
def Hashes.CollisionFree (H : Hashes) (identity : ControlIdentity) (purpose : PurposeId) : Prop :=
  Set.InjOn H.blake3 (SlotId.preimage '' OwnSlots (identityDigest H identity) purpose)

/-- Without digest collisions, a name determines its slot among one record's own slots. -/
theorem canonicalId_inj {H : Hashes} {identity : ControlIdentity} {purpose : PurposeId}
    (hcf : H.CollisionFree identity purpose) {s t : SlotId}
    (hs : s ∈ OwnSlots (identityDigest H identity) purpose)
    (ht : t ∈ OwnSlots (identityDigest H identity) purpose)
    (h : s.canonicalId H = t.canonicalId H) : s = t := by
  have hhex := (String.append_right_inj _).mp h
  have hdigest := Vector.toList_inj.mp (hexText_inj hhex)
  exact SlotId.preimage_inj (hcf (Set.mem_image_of_mem _ hs) (Set.mem_image_of_mem _ ht) hdigest)

/-- Cut or pad a byte string to the length of a digest. -/
def padDigest (bytes : List UInt8) : Digest :=
  ⟨((bytes ++ List.replicate 32 0).take 32).toArray, by simp⟩

/-- Digest functions that copy the generation, transaction and backend out of a
`meshSession` slot's preimage. -/
def fieldHashes : Hashes where
  sha256 _ := Vector.replicate 32 0
  blake3 b := padDigest ((b.drop 68).take 8 ++ (b.drop 84).take 16 ++ b.drop 108)

theorem blake3_preimage {digest : Digest} {s : SlotId}
    (hs : s ∈ OwnSlots digest .meshSession) :
    (fieldHashes.blake3 s.preimage).toList = leBytes 8 s.generation.toNat ++
      (s.txnId.toList ++ (textBytes s.backendInstance.slotText ++ List.replicate 32 0).take 8) := by
  have hpurpose : (textBytes (PurposeId.slotText .meshSession)).length = 12 := by decide
  simp (disch := first | omega | simp [hpurpose]) [fieldHashes, padDigest, SlotId.preimage,
    SlotId.fields, frames, frame, hs.2, hpurpose, List.take_append, List.drop_append,
    List.take_of_length_le, List.drop_eq_nil_of_le]
  omega

/-- The collision assumption is satisfiable. -/
theorem fieldHashes_collisionFree (identity : ControlIdentity) :
    fieldHashes.CollisionFree identity .meshSession := by
  rintro _ ⟨s, hs, rfl⟩ _ ⟨t, ht, rfl⟩ h
  have hlist := congrArg Vector.toList h
  rw [blake3_preimage hs, blake3_preimage ht] at hlist
  obtain ⟨hg, hrest⟩ := List.append_inj hlist (by simp)
  obtain ⟨htxn, hb⟩ := List.append_inj hrest (by simp)
  have hlt (a : NonZeroU64) : a.toNat < 256 ^ 8 := a.get.toNat_lt
  have hgen := NonZeroU64.toNat_inj.mp (leBytes_inj (hlt _) (hlt _) hg)
  have hbackend : ∀ b c : BackendKind,
      (textBytes b.slotText ++ List.replicate 32 0).take 8 =
        (textBytes c.slotText ++ List.replicate 32 0).take 8 → b = c := by
    intro b c
    cases b <;> cases c <;> decide
  have hst : s = t := by
    obtain ⟨hd, hp⟩ := hs
    obtain ⟨hd', hp'⟩ := ht
    cases s
    cases t
    simp only at hd hp hd' hp' hgen htxn hb
    rw [hd, hd', hp, hp', hgen, Vector.toList_inj.mp htxn, hbackend _ _ hb]
  rw [hst]

end Theyos.MeshControl

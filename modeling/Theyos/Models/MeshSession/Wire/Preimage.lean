import Theyos.Models.MeshSession.Wire.RoundTrip

/-!
# Signing preimages and digests

What a signature over a frame or an intent covers: the type byte and the canonical body without
its top-level signature entry. A digest covers the whole body behind the type byte, or behind the
domain for an intent.
-/

namespace Theyos.MeshSession

open Cbor Machine Schema

/-- Everything the session key signs. -/
inductive SignedBody (isPoint : List UInt8 → Bool) where
  | frame (f : AuthFrame isPoint)
  | intent (i : SignedMeshConnectionIntent)

section

variable {isPoint : List UInt8 → Bool} (F : Formats isPoint)

/-- The body of a frame without its signature. -/
def AuthFrame.unsignedBody : AuthFrame isPoint → Except CborError (List UInt8)
  | .proofR f => unsignedPreimageBody F.library F.proofR f
  | .proofI f => unsignedPreimageBody F.library F.proofI f
  | .finalConfirm f => unsignedPreimageBody F.library F.finalConfirm f
  | .activate f => unsignedPreimageBody F.library F.activate f
  | .activateAck f => unsignedPreimageBody F.library F.activateAck f

/-- The preimage of a frame's signature. -/
def AuthFrame.preimage (f : AuthFrame isPoint) : Except CborError (List UInt8) := do
  return f.typeByte :: (← f.unsignedBody F)

/-- The preimage of an intent's signature. -/
def intentPreimage (i : SignedMeshConnectionIntent) : Except CborError (List UInt8) := do
  return intentTypeByte :: (← unsignedPreimageBody F.library F.intent i)

/-- The type byte of a signed body. -/
def SignedBody.typeByte : SignedBody isPoint → UInt8
  | .frame f => f.typeByte
  | .intent _ => intentTypeByte

/-- A signed body without its signature. -/
def SignedBody.unsignedBody : SignedBody isPoint → Except CborError (List UInt8)
  | .frame f => f.unsignedBody F
  | .intent i => unsignedPreimageBody F.library F.intent i

/-- What a signature covers. -/
def SignedBody.preimage : SignedBody isPoint → Except CborError (List UInt8)
  | .frame f => f.preimage F
  | .intent i => intentPreimage F i

/-- What the digest of a frame covers, its signature included. -/
def AuthFrame.digestInput (f : AuthFrame isPoint) : Except CborError (List UInt8) := do
  return f.typeByte :: (← f.bodyCbor F)

/-- What the digest of an intent covers, its signature included, behind its domain. -/
def intentDigestInput (i : SignedMeshConnectionIntent) : Except CborError (List UInt8) := do
  return textBytes intentDomain ++ (← toCanonicalVec F.library F.intent i)

end

/-- Two signed bodies are of one type and agree on every field but their signature. -/
def SameButSig {isPoint : List UInt8 → Bool} : SignedBody isPoint → SignedBody isPoint → Prop
  | .frame (.proofR f), .frame (.proofR g) => { f.1 with sig := g.1.sig } = g.1
  | .frame (.proofI f), .frame (.proofI g) => { f.1 with sig := g.1.sig } = g.1
  | .frame (.finalConfirm f), .frame (.finalConfirm g) => { f.1 with sig := g.1.sig } = g.1
  | .frame (.activate f), .frame (.activate g) => { f.1 with sig := g.1.sig } = g.1
  | .frame (.activateAck f), .frame (.activateAck g) => { f.1 with sig := g.1.sig } = g.1
  | .intent i, .intent j => { i.1 with sig := j.1.sig } = j.1
  | _, _ => False

/-- The signature is a field of its own and can be replaced alone. -/
structure SigApart {α : Type} (Fs : Fields α) (sig : α → List UInt8)
    (withSig : α → List UInt8 → α) : Prop where
  mem : ∀ a, ("sig", .bytes (sig a)) ∈ Fs.enc a
  replaced : ∀ a s, ∀ f ∈ Fs.enc (withSig a s), f = ("sig", .bytes s) ∨ f.1 ≠ "sig" ∧ f ∈ Fs.enc a

theorem proofR_sigApart {isPoint : List UInt8 → Bool} :
    SigApart (proofRFields isPoint) (·.sig) fun w s => { w with sig := s } := by
  constructor <;> simp [proofRFields, Fields.equiv, Fields.cons, Fields.nil, Codec.byteBuf]

theorem proofI_sigApart {isPoint : List UInt8 → Bool} :
    SigApart (proofIFields isPoint) (·.sig) fun w s => { w with sig := s } := by
  constructor <;> simp [proofIFields, Fields.equiv, Fields.cons, Fields.nil, Codec.byteBuf]

theorem finalConfirm_sigApart :
    SigApart finalConfirmFields (·.sig) fun w s => { w with sig := s } := by
  constructor <;> simp [finalConfirmFields, Fields.equiv, Fields.cons, Fields.nil, Codec.byteBuf]

theorem activate_sigApart : SigApart activateFields (·.sig) fun w s => { w with sig := s } := by
  constructor <;> simp [activateFields, Fields.equiv, Fields.cons, Fields.nil, Codec.byteBuf]

theorem activateAck_sigApart :
    SigApart activateAckFields (·.sig) fun w s => { w with sig := s } := by
  constructor <;> simp [activateAckFields, Fields.equiv, Fields.cons, Fields.nil, Codec.byteBuf]

theorem intent_sigApart : SigApart intentFields (·.sig) fun w s => { w with sig := s } := by
  constructor <;> simp [intentFields, Fields.equiv, Fields.cons, Fields.nil, Codec.byteBuf]

theorem filter_textEntry (fields : List (String × Value)) :
    (fields.map textEntry).filter (fun e => !hasKey "sig" e) =
      (fields.filter fun f => f.1 ≠ "sig").map textEntry := by
  rw [List.filter_map]
  congr 1
  refine List.filter_congr fun f _ => ?_
  simp [hasKey, textEntry, Value.asText]

section

variable {L : Library} {limit : ℕ∞} {α ε : Type} {Fs : Fields α} {hnames : Fs.names.Nodup}
  {check : α → Except ε Unit} {S : Serde (Checked check)}

/-- The sorted fields of a value other than the signature. -/
def unsignedFields (Fs : Fields α) (a : α) : List (String × Value) :=
  (sortFields ((Fs.enc a).map (sortField keyOrder))).filter fun f => f.1 ≠ "sig"

variable {a : α}

theorem mem_unsignedFields {f : String × Value} (hf : f ∈ Fs.enc a) (hname : f.1 ≠ "sig") :
    sortField keyOrder f ∈ unsignedFields Fs a :=
  List.mem_filter.mpr ⟨(mem_sortFields keyOrder).mpr ⟨f, hf, rfl⟩, decide_eq_true hname⟩

theorem untagged_unsignedFields (a : α) :
    Untagged (Fs.depth + 1) (.map ((unsignedFields Fs a).map textEntry)) := by
  refine .map (fun e he => ?_) fun e he => ?_
  · obtain ⟨g, _, rfl⟩ := List.mem_map.mp he
    exact .text g.1
  · obtain ⟨g, hg, rfl⟩ := List.mem_map.mp he
    obtain ⟨f, hf, rfl⟩ := (mem_sortFields keyOrder).mp (List.mem_filter.mp hg).1
    exact (Fs.storable a f hf).untagged.sortMaps keyOrder

variable {sig : α → List UInt8} {withSig : α → List UInt8 → α}

/-- Values with the same fields other than the signature are equal once the signature is. -/
theorem eq_of_unsignedFields (hF : Fs.Faithful) (hnames : Fs.names.Nodup)
    (hsig : SigApart Fs sig withSig) {b : α} (h : unsignedFields Fs a = unsignedFields Fs b) :
    withSig a (sig b) = b := by
  let look := lookupText ((sortFields ((Fs.enc b).map (sortField keyOrder))).map textEntry)
  have hfst : ((sortFields ((Fs.enc b).map (sortField keyOrder))).map Prod.fst).Nodup := by
    have hperm := (sortFields_perm ((Fs.enc b).map (sortField keyOrder))).map Prod.fst
    rw [map_fst_sortField, Fs.enc_names] at hperm
    exact hperm.nodup_iff.mpr hnames
  have hlook {f : String × Value} (hf : sortField keyOrder f ∈
      sortFields ((Fs.enc b).map (sortField keyOrder))) (hplain : Plain f.2) :
      look f.1 = Cbor.canonicalize keyOrder f.2 := by
    rw [hplain.canonicalize keyOrder_textFirst]
    exact lookupText_of_mem hfst hf
  have hb : Fs.dec look = some b :=
    Fs.round keyOrder_textFirst b look fun f hf =>
      hlook ((mem_sortFields keyOrder).mpr ⟨f, hf, rfl⟩) (hF.plain b f hf)
  have ha : Fs.dec look = some (withSig a (sig b)) := by
    refine Fs.round keyOrder_textFirst _ look fun f hf => ?_
    have hplain := hF.plain _ f hf
    rcases hsig.replaced a (sig b) f hf with rfl | ⟨hname, hmem⟩
    · exact hlook ((mem_sortFields keyOrder).mpr ⟨_, hsig.mem b, rfl⟩) hplain
    · have hunsigned := mem_unsignedFields hmem hname
      rw [h] at hunsigned
      exact hlook (List.mem_filter.mp hunsigned).1 hplain
  exact Option.some.inj (ha.symm.trans hb)

variable (hL : L.Deterministic limit) (hlimit : 3 ≤ limit)
  (hS : S.Reads L limit ((Codec.struct Fs hnames).checked check))
  (hc : FrameSchema ((Codec.struct Fs hnames).checked check))

include hL hlimit hS hc

/-- The unsigned bytes encode the sorted fields other than the signature. -/
theorem unsignedPreimageBody_eq_ok {a : Checked check} {bytes : List UInt8}
    (h : unsignedPreimageBody L S a = .ok bytes) :
    encode (.map ((unsignedFields Fs a.1).map textEntry)) = some bytes := by
  have hdepth := hc.depth_le hlimit
  have hd := (((Codec.struct Fs hnames).checked check).storable a).untagged
  have henc : ((Codec.struct Fs hnames).checked check).enc a =
      .map ((Fs.enc a.1).map textEntry) := rfl
  simp only [unsignedPreimageBody, withoutSigField, eq_ok_iff,
    toCanonicalVec_eq_ok hL hS hc.faithful hdepth, Value.asMap_eq_some] at h
  obtain ⟨body, hbody, _, ⟨v, n⟩, hread, entries, hentries, _, hwrite⟩ := h
  rw [hL.fromReader_encode (hd.sortMaps keyOrder) hdepth hbody, henc,
    sortMaps_fields keyOrder_textFirst] at hread
  obtain ⟨rfl, -⟩ : _ = v ∧ body.length = n := by simpa using hread
  obtain rfl := Value.map.inj hentries
  rwa [filter_textEntry, ← unsignedFields, hL.intoWriter_eq (untagged_unsignedFields a.1)] at hwrite

/-- Equal unsigned bytes come from values that agree on every field but the signature. -/
theorem unsignedPreimageBody_inj (hF : Fs.Faithful) (hsig : SigApart Fs sig withSig)
    {a b : Checked check} {bytes : List UInt8} (ha : unsignedPreimageBody L S a = .ok bytes)
    (hb : unsignedPreimageBody L S b = .ok bytes) : withSig a.1 (sig b.1) = b.1 := by
  have heq := (untagged_unsignedFields a.1).encode_inj (untagged_unsignedFields b.1)
    (unsignedPreimageBody_eq_ok hL hlimit hS hc ha) (unsignedPreimageBody_eq_ok hL hlimit hS hc hb)
  exact eq_of_unsignedFields hF hnames hsig (textEntry_injective.list_map (Value.map.inj heq))

end

section

variable {isPoint : List UInt8 → Bool} {F : Formats isPoint} {limit : ℕ∞} (hF : F.Lawful limit)

include hF

variable {f : AuthFrame isPoint} {bytes : List UInt8}

/-- Frames of one type with equal unsigned bodies agree on every field but the signature. -/
theorem AuthFrame.unsignedBody_inj {g : AuthFrame isPoint} (htype : f.typeByte = g.typeByte)
    (hf : f.unsignedBody F = .ok bytes) (hg : g.unsignedBody F = .ok bytes) :
    SameButSig (.frame f) (.frame g) := by
  cases f <;> cases g
  case proofR.proofR =>
    exact unsignedPreimageBody_inj hF.library hF.nesting hF.proofR (proofR_frame isPoint)
      (proofRFields_faithful isPoint) proofR_sigApart hf hg
  case proofI.proofI =>
    exact unsignedPreimageBody_inj hF.library hF.nesting hF.proofI (proofI_frame isPoint)
      (proofIFields_faithful isPoint) proofI_sigApart hf hg
  case finalConfirm.finalConfirm =>
    exact unsignedPreimageBody_inj hF.library hF.nesting hF.finalConfirm finalConfirm_frame
      finalConfirmFields_faithful finalConfirm_sigApart hf hg
  case activate.activate =>
    exact unsignedPreimageBody_inj hF.library hF.nesting hF.activate activate_frame
      activateFields_faithful activate_sigApart hf hg
  case activateAck.activateAck =>
    exact unsignedPreimageBody_inj hF.library hF.nesting hF.activateAck activateAck_frame
      activateAckFields_faithful activateAck_sigApart hf hg
  all_goals exact absurd htype (by simp [typeByte, typeProofR, typeProofI, typeFinalConfirm,
    typeActivate, typeActivateAck])

omit hF in
theorem AuthFrame.typeByte_ne_intent (f : AuthFrame isPoint) : f.typeByte ≠ intentTypeByte := by
  cases f <;> simp [typeByte, intentTypeByte, typeProofR, typeProofI, typeFinalConfirm,
    typeActivate, typeActivateAck]

/-- Bodies of one type with equal unsigned bodies agree on every field but the signature. -/
theorem SignedBody.unsignedBody_inj {s t : SignedBody isPoint} (htype : s.typeByte = t.typeByte)
    (hs : s.unsignedBody F = .ok bytes) (ht : t.unsignedBody F = .ok bytes) :
    SameButSig s t := by
  cases s with
  | frame f =>
    cases t with
    | frame g => exact AuthFrame.unsignedBody_inj hF htype hs ht
    | intent j => exact absurd htype f.typeByte_ne_intent
  | intent i =>
    cases t with
    | frame g => exact absurd htype.symm g.typeByte_ne_intent
    | intent j =>
      exact unsignedPreimageBody_inj hF.library hF.nesting hF.intent intent_frame
        intentFields_faithful intent_sigApart hs ht

/-- Frames with equal digest inputs are equal. -/
theorem AuthFrame.digestInput_inj {g : AuthFrame isPoint} {input : List UInt8}
    (hf : f.digestInput F = .ok input) (hg : g.digestInput F = .ok input) : f = g := by
  simp only [digestInput, eq_ok_iff] at hf hg
  obtain ⟨body, hbody, rfl⟩ := hf
  obtain ⟨body', hbody', heq⟩ := hg
  obtain ⟨htype, rfl⟩ := List.cons.inj heq
  have hread := (readAuthBody_bodyCbor hF hbody).1
  rw [← htype, (readAuthBody_bodyCbor hF hbody').1] at hread
  exact (Except.ok.inj hread).symm

/-- Intents with equal digest inputs are equal. -/
theorem intentDigestInput_inj {i j : SignedMeshConnectionIntent} {input : List UInt8}
    (hi : intentDigestInput F i = .ok input) (hj : intentDigestInput F j = .ok input) : i = j := by
  have hdepth := intent_frame.depth_le hF.nesting
  simp only [intentDigestInput, eq_ok_iff] at hi hj
  obtain ⟨body, hbody, rfl⟩ := hi
  obtain ⟨body', hbody', heq⟩ := hj
  obtain rfl := List.append_cancel_left heq
  have hread := (fromCanonicalBytes_toCanonicalVec hF.library hF.intent
    intent_frame.faithful hdepth hbody).2
  rw [(fromCanonicalBytes_toCanonicalVec hF.library hF.intent
    intent_frame.faithful hdepth hbody').2] at hread
  exact (Except.ok.inj hread).symm

omit hF in
theorem SignedBody.preimage_eq_ok {s : SignedBody isPoint} :
    s.preimage F = .ok bytes ↔ ∃ body, s.unsignedBody F = .ok body ∧ s.typeByte :: body = bytes := by
  cases s <;> simp only [preimage, AuthFrame.preimage, intentPreimage, eq_ok_iff] <;>
    rfl

end

/-- Equal preimages come from bodies of one type that agree on every field but the signature. -/
theorem preimage_unambiguous {isPoint : List UInt8 → Bool} {F : Formats isPoint} {limit : ℕ∞}
    (hF : F.Lawful limit) (s t : SignedBody isPoint) (bytes : List UInt8)
    (hs : s.preimage F = .ok bytes) (ht : t.preimage F = .ok bytes) : SameButSig s t := by
  obtain ⟨body, hbody, rfl⟩ := SignedBody.preimage_eq_ok.mp hs
  obtain ⟨body', hbody', heq⟩ := SignedBody.preimage_eq_ok.mp ht
  obtain ⟨htype, rfl⟩ := List.cons.inj heq
  exact SignedBody.unsignedBody_inj hF htype.symm hbody hbody'

theorem preimage_unambiguous_smallAck :
    (SignedBody.frame (.activateAck smallAck)).preimage smallFormats =
        (SignedBody.frame (.activateAck (smallAck.withSig (.replicate 64 7)))).preimage
          smallFormats ∧
      @SameButSig openP256.isPoint (.frame (.activateAck smallAck))
        (.frame (.activateAck (smallAck.withSig (.replicate 64 7)))) := by
  have hF := @cursorFormats_lawful openP256.isPoint 8 (by decide)
  obtain ⟨bytes, hs, ht⟩ : ∃ bytes,
      (SignedBody.frame (.activateAck smallAck)).preimage smallFormats = .ok bytes ∧
      (SignedBody.frame (.activateAck (smallAck.withSig (.replicate 64 7)))).preimage
        smallFormats = .ok bytes :=
    ⟨typeActivateAck :: (unsignedPreimageBody smallFormats.library smallFormats.activateAck
      smallAck).toOption.getD [], by decide +kernel, by decide +kernel⟩
  exact ⟨hs.trans ht.symm, preimage_unambiguous hF _ _ bytes hs ht⟩

end Theyos.MeshSession

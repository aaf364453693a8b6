import Theyos.Core.Cbor.Canonical

/-!
# Derived serializers as codecs

The shapes that derived serializers give a type: scalars, byte strings, options, sequences,
structs as maps from field names, and enums as a variant name or a one-entry map.
-/

namespace Theyos.Cbor

/-- A type's written shape, with the round trip through the canonical form. -/
structure Codec (α : Type) where
  /-- The tree the derived writer produces. -/
  enc : α → Value
  /-- What the derived reader makes of a tree of that shape. -/
  dec : Value → Option α
  /-- A bound on the nesting of the trees written. -/
  depth : ℕ
  /-- Only plain trees are written. -/
  storable : ∀ a, Storable depth (enc a)
  /-- Canonicalizing what is written succeeds and keeps what is read. -/
  round : ∀ {cmp}, TextFirst cmp → ∀ a, ∃ v, canonicalize cmp (enc a) = some v ∧ dec v = some a

namespace Codec

variable {α β : Type} (c : Codec α)

/-- Read and write a type through another one's shape. -/
def refine (f : β → α) (g : α → Option β) (h : ∀ b, g (f b) = some b) : Codec β where
  enc b := c.enc (f b)
  dec v := (c.dec v).bind g
  depth := c.depth
  storable b := c.storable (f b)
  round hcmp b := by
    obtain ⟨v, hv, hdec⟩ := c.round hcmp (f b)
    exact ⟨v, hv, by simp [hdec, h]⟩

/-- Read and write a type through an equivalent one's shape. -/
def equiv (f : β → α) (g : α → β) (h : ∀ b, g (f b) = b) : Codec β :=
  c.refine f (fun a => some (g a)) fun b => congrArg some (h b)

/-- The values of a type that pass a check, written as the type is. -/
def checked {ε : Type} (c : Codec α) (check : α → Except ε Unit) : Codec (Machine.Checked check) :=
  c.refine Subtype.val (fun a => (Machine.validate check a).toOption) fun b => by
    rw [Machine.validate_eq_ok.mpr (Eq.refl b.1)]
    rfl

/-- Booleans. -/
def bool : Codec Bool where
  enc := .bool
  dec | .bool b => some b
      | _ => none
  depth := 0
  storable := .bool
  round _ b := ⟨.bool b, rfl, rfl⟩

/-- Texts. -/
def text : Codec String where
  enc := .text
  dec | .text s => some s
      | _ => none
  depth := 0
  storable := .text
  round _ s := ⟨.text s, rfl, rfl⟩

/-- Byte strings. -/
def bytes : Codec (List UInt8) where
  enc := .bytes
  dec | .bytes data => some data
      | _ => none
  depth := 0
  storable := .bytes
  round _ data := ⟨.bytes data, rfl, rfl⟩

/-- Unsigned 64-bit integers. -/
def u64 : Codec UInt64 where
  enc n := .integer (n.toNat : ℕ)
  dec | .integer (.ofNat n) => if n < 2 ^ 64 then some (.ofNat n) else none
      | _ => none
  depth := 0
  storable n := .integer n.toNat_lt
  round _ n := ⟨.integer n.toNat, rfl, (if_pos n.toNat_lt).trans (by simp)⟩

/-- Byte arrays of a fixed length. -/
def byteArray (n : ℕ) : Codec (Vector UInt8 n) :=
  bytes.refine Vector.toList (fun data => if h : data.length = n then some ⟨⟨data⟩, h⟩ else none)
    fun data => by simp [Vector.toList]

/-- Enums of unit variants, written as the variant's name. -/
def names (name : α → String) (all : List α) (hall : ∀ a, a ∈ all)
    (hinj : Function.Injective name) : Codec α :=
  text.refine name (fun s => all.find? fun a => name a = s) fun a => by
    cases hfind : all.find? fun b => name b = name a with
    | none => simpa using List.find?_eq_none.mp hfind a (hall a)
    | some b =>
      have hname : name b = name a := by simpa using List.find?_some hfind
      rw [hinj hname]

/-- Sequences. -/
def array : Codec (List α) where
  enc as := .array (as.map c.enc)
  dec | .array items => items.mapM c.dec
      | _ => none
  depth := c.depth + 1
  storable as := .array fun v hv => by
    obtain ⟨a, _, rfl⟩ := List.mem_map.mp hv
    exact c.storable a
  round {cmp} hcmp as := by
    have hitems : ∃ vs, canonicalizeItems cmp (as.map c.enc) = some vs ∧
        vs.mapM c.dec = some as := by
      induction as with
      | nil => exact ⟨[], rfl, rfl⟩
      | cons a as ih =>
        obtain ⟨v, hv, hdec⟩ := c.round hcmp a
        obtain ⟨vs, hvs, hdecs⟩ := ih
        exact ⟨v :: vs, by simp [canonicalizeItems, hv, hvs], by simp [hdec, hdecs]⟩
    obtain ⟨vs, hvs, hdec⟩ := hitems
    exact ⟨.array vs, by simp [canonicalize, hvs], hdec⟩

theorem ne_null_of_canonicalize {cmp : Value → Value → Ordering} {u v : Value}
    (h : canonicalize cmp u = some v) (hu : u ≠ .null) : v ≠ .null := by
  rintro rfl
  cases u <;> simp_all [canonicalize, Option.map_eq_some_iff, Option.bind_eq_some_iff]

/-- Options, with null for absence. -/
def option (h : ∀ a, c.enc a ≠ .null) : Codec (Option α) where
  enc | some a => c.enc a
      | none => .null
  dec | .null => some none
      | v => (c.dec v).map some
  depth := c.depth
  storable
    | some a => c.storable a
    | none => .null
  round hcmp
    | none => ⟨.null, rfl, rfl⟩
    | some a => by
      obtain ⟨v, hv, hdec⟩ := c.round hcmp a
      refine ⟨v, hv, ?_⟩
      have hne := ne_null_of_canonicalize hv (h a)
      cases v <;> simp_all

end Codec

/-- A constructor takes the entries of a tuple in order, and leaves what follows them. -/
class Uncurry (τ β : Type) (φ : outParam Type) where
  uncurry : φ → τ → β

export Uncurry (uncurry)

instance {β : Type} : Uncurry Unit β β where
  uncurry b _ := b

instance {β ρ : Type} : Uncurry ρ (β × ρ) β where
  uncurry := Prod.mk

instance {α τ β φ : Type} [Uncurry τ β φ] : Uncurry (α × τ) β (α → φ) where
  uncurry f | (a, rest) => uncurry (f a) rest

/-- The fields of a struct, in the order written. -/
structure Fields (α : Type) where
  /-- The field names. -/
  names : List String
  /-- The written fields. -/
  enc : α → List (String × Value)
  /-- What the reader makes of a map, given by its lookups. -/
  dec : (String → Option Value) → Option α
  /-- A bound on the nesting of the fields' trees. -/
  depth : ℕ
  /-- The fields written are the ones declared. -/
  enc_names : ∀ a, (enc a).map Prod.fst = names
  /-- Only plain trees are written. -/
  storable : ∀ a, ∀ f ∈ enc a, Storable depth f.2
  /-- Every field has a canonical form. -/
  canonical : ∀ {cmp}, TextFirst cmp → ∀ a, ∀ f ∈ enc a, (canonicalize cmp f.2).isSome
  /-- Reading the fields' canonical forms gives the struct. -/
  round : ∀ {cmp}, TextFirst cmp → ∀ a look, (∀ f ∈ enc a, look f.1 = canonicalize cmp f.2) →
    dec look = some a

namespace Fields

variable {α β : Type}

/-- No field left. -/
def nil : Fields Unit where
  names := []
  enc _ := []
  dec _ := some ()
  depth := 0
  enc_names _ := rfl
  storable _ _ hf := nomatch hf
  canonical _ _ _ hf := nomatch hf
  round _ _ _ _ := rfl

/-- A field before the others. -/
def cons (name : String) (c : Codec α) (rest : Fields β) : Fields (α × β) where
  names := name :: rest.names
  enc x := (name, c.enc x.1) :: rest.enc x.2
  dec look := do return (← (look name).bind c.dec, ← rest.dec look)
  depth := max c.depth rest.depth
  enc_names x := by simp [rest.enc_names]
  storable x f hf := by
    rcases List.mem_cons.mp hf with rfl | hf
    · exact (c.storable x.1).mono (le_max_left _ _)
    · exact (rest.storable x.2 f hf).mono (le_max_right _ _)
  canonical hcmp x f hf := by
    rcases List.mem_cons.mp hf with rfl | hf
    · obtain ⟨v, hv, _⟩ := c.round hcmp x.1
      simp [hv]
    · exact rest.canonical hcmp x.2 f hf
  round hcmp x look hlook := by
    obtain ⟨v, hv, hdec⟩ := c.round hcmp x.1
    have hname : look name = some v := (hlook _ List.mem_cons_self).trans hv
    have hrest := rest.round hcmp x.2 look fun f hf => hlook f (List.mem_cons_of_mem _ hf)
    simp [hname, hdec, hrest]

/-- The fields of a type through an equivalent one's. -/
def equiv (F : Fields α) (f : β → α) (g : α → β) (h : ∀ b, g (f b) = b) : Fields β where
  names := F.names
  enc b := F.enc (f b)
  dec look := (F.dec look).map g
  depth := F.depth
  enc_names b := F.enc_names (f b)
  storable b := F.storable (f b)
  canonical hcmp b := F.canonical hcmp (f b)
  round hcmp b look hlook := by rw [F.round hcmp (f b) look hlook, Option.map_some, h]

end Fields

/-- The value stored in a map under a text key. -/
def lookupText (entries : List (Value × Value)) (name : String) : Option Value :=
  entries.findSome? fun
    | (.text key, v) => if key = name then some v else none
    | _ => none

theorem lookupText_of_mem {fields : List (String × Value)} (hnodup : (fields.map Prod.fst).Nodup)
    {f : String × Value} (hf : f ∈ fields) :
    lookupText (fields.map textEntry) f.1 = some f.2 := by
  induction fields with
  | nil => cases hf
  | cons g fields ih =>
    obtain ⟨hg, hnodup⟩ := List.nodup_cons.mp hnodup
    rcases List.mem_cons.mp hf with rfl | hf
    · simp [lookupText, textEntry]
    · have hne : g.1 ≠ f.1 := fun heq => hg (heq ▸ List.mem_map_of_mem hf)
      have hrest := ih hnodup hf
      simp only [lookupText, List.map_cons, textEntry, List.findSome?_cons, if_neg hne] at hrest ⊢
      exact hrest

namespace Codec

variable {α : Type}

/-- Whether every key of a map is one of the declared names. -/
def knownKeys (names : List String) (entries : List (Value × Value)) : Bool :=
  entries.all fun
    | (.text key, _) => names.contains key
    | _ => false

/-- Structs, written as maps from their field names; an unknown field is refused. -/
def struct (F : Fields α) (hnames : F.names.Nodup) : Codec α where
  enc a := .map ((F.enc a).map textEntry)
  dec | .map entries => if knownKeys F.names entries then F.dec (lookupText entries) else none
      | _ => none
  depth := F.depth + 1
  storable a := .map (F.storable a)
  round {cmp} hcmp a := by
    let rewrite (f : String × Value) : String × Value := (f.1, (canonicalize cmp f.2).getD .null)
    have hr : ∀ f ∈ F.enc a, Rewrites cmp f (rewrite f) := by
      intro f hf
      obtain ⟨v, hv⟩ := Option.isSome_iff_exists.mp (F.canonical hcmp a f hf)
      exact ⟨rfl, by simp [rewrite, hv]⟩
    have hrewritten := List.forall₂_map_right_iff.mpr (List.forall₂_same.mpr hr)
    have hperm := sortFields_perm ((F.enc a).map rewrite)
    have hfst : ((F.enc a).map rewrite).map Prod.fst = F.names := by
      simpa [rewrite, Function.comp_def] using F.enc_names a
    have hnodup : ((sortFields ((F.enc a).map rewrite)).map Prod.fst).Nodup :=
      (hperm.map Prod.fst).nodup_iff.mpr (hfst ▸ hnames)
    refine ⟨_, (canonicalize_fields hcmp).mpr ⟨_, hrewritten, hfst ▸ hnames, rfl⟩, ?_⟩
    have hknown : knownKeys F.names ((sortFields ((F.enc a).map rewrite)).map textEntry) := by
      simp only [knownKeys, List.all_map, List.all_eq_true, Function.comp_apply, textEntry,
        List.contains_iff_mem]
      intro g hg
      exact hfst ▸ List.mem_map_of_mem (hperm.mem_iff.mp hg)
    refine (if_pos hknown).trans (F.round hcmp a _ fun f hf => ?_)
    have hmem : rewrite f ∈ sortFields ((F.enc a).map rewrite) :=
      hperm.mem_iff.mpr (List.mem_map_of_mem hf)
    exact (lookupText_of_mem hnodup hmem).trans (hr f hf).2.symm

end Codec

/-- The variant an enum's tree names. -/
def Value.variant : Value → Option String
  | .text name => some name
  | .map [(.text name, _)] => some name
  | _ => none

/-- The variants of an enum: a codec that only reads trees naming one of them. -/
structure Variants (α : Type) extends Codec α where
  /-- The variant names. -/
  names : List String
  /-- Trees naming another variant are refused. -/
  named : ∀ {v a}, dec v = some a → ∃ name ∈ names, v.variant = some name

namespace Variants

variable {α β : Type}

/-- A variant without fields. -/
def unit (name : String) : Variants Unit where
  enc _ := .text name
  dec | .text s => if s = name then some () else none
      | _ => none
  depth := 0
  storable _ := .text name
  round _ _ := ⟨.text name, rfl, if_pos rfl⟩
  names := [name]
  named {v a} h := by
    cases v with
    | text s => exact ⟨s, by simpa using h, rfl⟩
    | _ => cases h

/-- A variant with content, written as a map from its name. -/
def content (name : String) (c : Codec α) : Variants α where
  enc a := .map [(.text name, c.enc a)]
  dec | .map [(.text s, v)] => if s = name then c.dec v else none
      | _ => none
  depth := c.depth + 1
  storable a := @Storable.map c.depth [(name, c.enc a)] (by simpa using c.storable a)
  round hcmp a := by
    obtain ⟨v, hv, hdec⟩ := c.round hcmp a
    refine ⟨.map [(.text name, v)], ?_, by simpa using hdec⟩
    have hfields : List.Forall₂ (Rewrites _) [(name, c.enc a)] [(name, v)] := .cons ⟨rfl, hv⟩ .nil
    exact (canonicalize_fields hcmp).mpr ⟨_, hfields, by simp, rfl⟩
  names := [name]
  named {v a} h := by
    split at h
    · exact ⟨_, by simpa using (Option.ite_none_right_eq_some.mp h).1, rfl⟩
    · cases h

/-- Two groups of variants with different names. -/
def or (c : Variants α) (d : Variants β) (h : ∀ name ∈ c.names, name ∉ d.names) :
    Variants (α ⊕ β) where
  enc | .inl a => c.enc a
      | .inr b => d.enc b
  dec v := ((c.dec v).map .inl).or ((d.dec v).map .inr)
  depth := max c.depth d.depth
  storable
    | .inl a => (c.storable a).mono (le_max_left _ _)
    | .inr b => (d.storable b).mono (le_max_right _ _)
  round hcmp
    | .inl a => by
      obtain ⟨v, hv, hdec⟩ := c.round hcmp a
      exact ⟨v, hv, by simp [hdec]⟩
    | .inr b => by
      obtain ⟨v, hv, hdec⟩ := d.round hcmp b
      refine ⟨v, hv, ?_⟩
      cases hc : c.dec v with
      | none => simp [hdec]
      | some a =>
        obtain ⟨name, hname, hvariant⟩ := c.named hc
        obtain ⟨name', hname', hvariant'⟩ := d.named hdec
        cases hvariant.symm.trans hvariant'
        exact (h name hname hname').elim
  names := c.names ++ d.names
  named {v x} hx := by
    rcases Option.or_eq_some_iff.mp hx with hx | ⟨_, hx⟩
    · obtain ⟨a, ha, rfl⟩ := Option.map_eq_some_iff.mp hx
      obtain ⟨name, hname, hvariant⟩ := c.named ha
      exact ⟨name, List.mem_append_left _ hname, hvariant⟩
    · obtain ⟨b, hb, rfl⟩ := Option.map_eq_some_iff.mp hx
      obtain ⟨name, hname, hvariant⟩ := d.named hb
      exact ⟨name, List.mem_append_right _ hname, hvariant⟩

end Variants

/-- A CBOR library: its writer and reader of value trees, and its order of map keys. -/
structure Ciborium where
  intoWriter : Value → Option (List UInt8)
  fromReader : List UInt8 → Option Value
  canonicalCmp : Value → Value → Ordering

/-- The nesting a reader follows at least. -/
def recursionLimit : ℕ := 64

/-- The library reads back the plain trees it wrote and orders text keys canonically. -/
structure Ciborium.Lawful (C : Ciborium) : Prop where
  /-- Text keys are compared length first. -/
  textFirst : TextFirst C.canonicalCmp
  /-- A written tree is read back. -/
  fromReader_intoWriter : ∀ {v data}, Storable recursionLimit v → C.intoWriter v = some data →
    C.fromReader data = some v

/-- A type's own writer and reader. -/
structure Serde (α : Type) where
  intoWriter : α → Option (List UInt8)
  fromReader : List UInt8 → Option α

/-- The writer and reader derived for a type of a given shape. -/
structure Serde.Derived {α : Type} (S : Serde α) (C : Ciborium) (c : Codec α) : Prop where
  /-- A value is written as its tree. -/
  intoWriter_eq : ∀ a, S.intoWriter a = C.intoWriter (c.enc a)
  /-- A written tree of the type's shape is read as the value it stands for. -/
  fromReader_eq : ∀ {v data a}, Storable recursionLimit v → C.intoWriter v = some data →
    c.dec v = some a → S.fromReader data = some a

end Theyos.Cbor

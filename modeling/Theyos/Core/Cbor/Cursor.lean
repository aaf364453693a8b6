import Theyos.Core.Cbor.Plain
import Mathlib.Data.ENat.Basic

/-!
# Readers on a cursor and what they coerce

A CBOR library whose reader tells how far it read, and the derived typed readers over it. The
typed readers coerce: a byte buffer is also read from an array of small integers, and a sequence
also from a byte string.
-/

namespace Theyos.Cbor

/-- The text of a text item. -/
def Value.asText : Value → Option String
  | .text s => some s
  | _ => none

/-- The entries of a map item. -/
def Value.asMap : Value → Option (List (Value × Value))
  | .map entries => some entries
  | _ => none

variable {v : Value}

theorem Value.asText_eq_some {s : String} : v.asText = some s ↔ v = .text s := by
  cases v <;> simp [asText]

theorem Value.asMap_eq_some {entries : List (Value × Value)} :
    v.asMap = some entries ↔ v = .map entries := by
  cases v <;> simp [asMap]

/-- A CBOR library: its writer of value trees, and its reader from a cursor, which answers
the item it read and the position it stopped at. -/
structure Library where
  intoWriter : Value → Option (List UInt8)
  fromReader : List UInt8 → Option (Value × ℕ)

/-- The library writes shortest definite encodings and reads its own output up to a nesting. -/
structure Library.Deterministic (L : Library) (limit : ℕ∞) : Prop where
  /-- Values are written in their shortest definite form. -/
  intoWriter_eq : ∀ {d v}, Untagged d v → L.intoWriter v = encode v
  /-- A written value is read back to the end of the input. -/
  fromReader_encode : ∀ {d v data}, Untagged d v → (d : ℕ∞) ≤ limit → encode v = some data →
    L.fromReader data = some (v, data.length)

/-- The reader of the library answers nothing else on the bytes of a value, however deep it nests. -/
structure Library.Exact (L : Library) (limit : ℕ∞) : Prop extends L.Deterministic limit where
  eq_of_fromReader : ∀ {d v data read}, Untagged d v → encode v = some data →
    L.fromReader data = some read → read = (v, data.length)

/-- The typed writer and reader of a shape over a library. -/
structure Serde.Reads {α : Type} (S : Serde α) (L : Library) (limit : ℕ∞) (c : Codec α) :
    Prop where
  /-- A value is written as its tree. -/
  intoWriter_eq : ∀ a, S.intoWriter a = L.intoWriter (c.enc a)
  /-- What is read from the bytes of a plain tree is what the tree stands for. -/
  fromReader_sound : ∀ {v data a}, Plain v → encode v = some data →
    S.fromReader data = some a → c.dec v = some a
  /-- What a plain tree stands for is read from its bytes, up to a nesting. -/
  fromReader_complete : ∀ {d v data a}, Plain v → Untagged d v → (d : ℕ∞) ≤ limit →
    encode v = some data → c.dec v = some a → S.fromReader data = some a

/-- The library with shortest encodings and a reader of bounded nesting. -/
def cursorLibrary (limit : ℕ) : Library where
  intoWriter := encode
  fromReader data := (decode (limit + 1) data).map fun (v, rest) => (v, data.length - rest.length)

theorem cursorLibrary_deterministic (limit : ℕ) : (cursorLibrary limit).Deterministic limit where
  intoWriter_eq _ := rfl
  fromReader_encode hv hd h := by
    have hread := (hv.mono (ENat.natCast_le_natCast.mp hd)).decode_encode h []
    rw [List.append_nil] at hread
    simp [cursorLibrary, hread]

theorem cursorLibrary_exact (limit : ℕ) : (cursorLibrary limit).Exact limit where
  toDeterministic := cursorLibrary_deterministic limit
  eq_of_fromReader {d v data read} hv h hread := by
    obtain ⟨⟨w, rest⟩, hw, rfl⟩ := Option.map_eq_some_iff.mp hread
    have hwhole := decode_mono (le_max_left (limit + 1) (d + 1)) hw
    have hv' := decode_mono (le_max_right (limit + 1) (d + 1)) (hv.decode_encode h [])
    rw [List.append_nil, hwhole] at hv'
    cases hv'
    simp

/-- The typed writer and reader of a shape over that library. -/
def Codec.cursorSerde {α : Type} (c : Codec α) (limit : ℕ) : Serde α where
  intoWriter a := encode (c.enc a)
  fromReader data := ((cursorLibrary limit).fromReader data).bind fun (v, _) => c.dec v

variable {α β : Type}

theorem Codec.cursorSerde_reads (c : Codec α) (limit : ℕ) :
    (c.cursorSerde limit).Reads (cursorLibrary limit) limit c where
  intoWriter_eq _ := rfl
  fromReader_sound {v data a} hv h hread := by
    obtain ⟨d, hd⟩ := hv.exists_untagged
    obtain ⟨_, hw, hdec⟩ := Option.bind_eq_some_iff.mp hread
    cases (cursorLibrary_exact limit).eq_of_fromReader hd h hw
    exact hdec
  fromReader_complete _ hv hd h hdec := by
    simp [cursorSerde, (cursorLibrary_deterministic limit).fromReader_encode hv hd h, hdec]

namespace Codec

variable {α : Type}

/-- A byte from an integer item. -/
def readByte : Value → Option UInt8
  | .integer (.ofNat n) => if n < 256 then some (.ofNat n) else none
  | _ => none

theorem storable_bytes (data : List UInt8) : Storable 0 (.bytes data) := .bytes data

theorem round_bytes {cmp : Value → Value → Ordering} (_ : TextFirst cmp) (data : List UInt8) :
    ∃ v, canonicalize cmp (.bytes data) = some v ∧
      (match v with
        | .bytes data => some data
        | .array items => items.mapM readByte
        | _ => none) = some data :=
  ⟨.bytes data, rfl, rfl⟩

/-- Byte buffers: written as byte strings, also read from arrays of bytes. -/
def byteBuf : Codec (List UInt8) where
  enc := .bytes
  dec
    | .bytes data => some data
    | .array items => items.mapM readByte
    | _ => none
  depth := 0
  storable := storable_bytes
  round := round_bytes

theorem sized_toList {n : ℕ} (data : Vector UInt8 n) :
    (if h : data.toList.length = n then some (⟨⟨data.toList⟩, h⟩ : Vector UInt8 n) else none) =
      some data := by
  simp [Vector.toList]

/-- Byte buffers of a fixed length. -/
def fixedBytes (n : ℕ) : Codec (Vector UInt8 n) :=
  byteBuf.refine Vector.toList (fun data => if h : data.length = n then some ⟨⟨data⟩, h⟩ else none)
    sized_toList

/-- Sequences: written as arrays, also read from the bytes of a byte string. -/
def seq (c : Codec α) : Codec (List α) where
  enc := c.array.enc
  dec
    | .bytes data => data.mapM fun b => c.dec (.integer b.toNat)
    | v => c.array.dec v
  depth := c.array.depth
  storable := c.array.storable
  round hcmp as := by
    obtain ⟨v, hv, hdec⟩ := c.array.round hcmp as
    refine ⟨v, hv, ?_⟩
    cases v with
    | array items => exact hdec
    | _ => cases hdec

end Codec

/-- The trees that ask for no coercion: byte strings are nonempty, and no array holds an
integer. -/
inductive Direct : Value → Prop
  | integer (n : Int) : Direct (.integer n)
  | bytes {data : List UInt8} (h : data ≠ []) : Direct (.bytes data)
  | text (s : String) : Direct (.text s)
  | bool (b : Bool) : Direct (.bool b)
  | array {items : List Value} (h : ∀ v ∈ items, Direct v)
      (hitem : ∀ v ∈ items, ∀ n, v ≠ .integer n) : Direct (.array items)
  | map {fields : List (String × Value)} (h : ∀ f ∈ fields, Direct f.2) :
      Direct (.map (fields.map textEntry))

theorem direct_fields {fields : List (String × Value)} :
    Direct (.map (fields.map textEntry)) ↔ ∀ f ∈ fields, Direct f.2 := by
  refine ⟨fun hdirect => ?_, .map⟩
  generalize hentries : fields.map textEntry = entries at hdirect
  obtain _ | _ | _ | _ | _ | h := hdirect
  cases textEntry_injective.list_map hentries
  exact h

/-- Reorderings ask for the same coercions. -/
theorem Direct.reordered {u : Value} (hu : Direct u) (h : Reordered u v) : Direct v := by
  induction h with
  | integer n | bytes data | text s | bool b => exact hu
  | @array us vs hlength h ih =>
    obtain _ | _ | _ | _ | ⟨hus, hitem⟩ := hu
    have hpair {v : Value} (hv : v ∈ vs) : ∃ u ∈ us, (u, v) ∈ us.zip vs := by
      obtain ⟨i, hi, rfl⟩ := List.mem_iff_getElem.mp hv
      have hi' : i < us.length := by omega
      exact ⟨us[i], List.getElem_mem hi', List.mem_iff_getElem.mpr ⟨i, by simp [hi, hi'], by simp⟩⟩
    refine .array (fun v hv => ?_) fun v hv n hn => ?_
    · obtain ⟨u, hu, hp⟩ := hpair hv
      exact ih _ hp (hus u hu)
    · obtain ⟨u, hu, hp⟩ := hpair hv
      have hr : Reordered u v := h _ hp
      rw [hn] at hr
      cases hr
      exact hitem _ hu n rfl
  | @map fs gs hnames _ ih =>
    have hfs := direct_fields.mp hu
    refine .map fun g hg => ?_
    obtain ⟨f, hf, hfg⟩ := List.mem_map.mp (hnames.mem_iff.mpr (List.mem_map_of_mem hg))
    exact ih f hf g hg hfg (hfs f hf)

namespace Direct

@[simp] theorem u64_enc (n : UInt64) : Direct (Codec.u64.enc n) := .integer _

@[simp] theorem text_enc (s : String) : Direct (Codec.text.enc s) := .text s

@[simp] theorem byteBuf_enc {data : List UInt8} :
    Direct (Codec.byteBuf.enc data) ↔ 0 < data.length := by
  rw [List.length_pos_iff]
  exact ⟨fun | .bytes h => h, .bytes⟩

@[simp] theorem fixedBytes_enc {n : ℕ} (data : Vector UInt8 n) :
    Direct ((Codec.fixedBytes n).enc data) ↔ 0 < n :=
  byteBuf_enc.trans (by rw [Vector.length_toList])

@[simp] theorem texts_enc (ss : List String) : Direct ((Codec.seq .text).enc ss) := by
  refine .array (fun v hv => ?_) fun v hv n => ?_
  · obtain ⟨s, _, rfl⟩ := List.mem_map.mp hv
    exact .text s
  · obtain ⟨s, _, rfl⟩ := List.mem_map.mp hv
    exact nofun

end Direct

namespace Fields

variable {α β : Type}

/-- No field asks for a coercion. -/
def AllDirect (F : Fields α) (a : α) : Prop := ∀ f ∈ F.enc a, Direct f.2

@[simp] theorem allDirect_nil (x : Unit) : Fields.nil.AllDirect x := nofun

@[simp] theorem allDirect_cons {name : String} {c : Codec α} {rest : Fields β} {x : α × β} :
    (Fields.cons name c rest).AllDirect x ↔ Direct (c.enc x.1) ∧ rest.AllDirect x.2 :=
  List.forall_mem_cons

@[simp] theorem allDirect_equiv {F : Fields α} {f : β → α} {g : α → β} {h : ∀ b, g (f b) = b}
    {b : β} : (F.equiv f g h).AllDirect b ↔ F.AllDirect (f b) :=
  .rfl

end Fields

/-- A codec that writes plain trees, and reads a direct plain tree only as a value whose own
tree is a reordering of it. -/
structure Codec.Faithful {α : Type} (c : Codec α) : Prop where
  plain : ∀ a, Plain (c.enc a)
  exact : ∀ {v a}, Plain v → Direct v → Direct (c.enc a) → c.dec v = some a →
    Reordered v (c.enc a)

/-- Fields that are written and read that way. -/
structure Fields.Faithful {α : Type} (F : Fields α) : Prop where
  plain : ∀ a, ∀ f ∈ F.enc a, Plain f.2
  exact : ∀ {look a}, (∀ name v, look name = some v → Plain v ∧ Direct v) →
    F.AllDirect a → F.dec look = some a → ∀ f ∈ F.enc a, ∃ v, look f.1 = some v ∧ Reordered v f.2

@[simp] theorem Fields.nil_faithful : Fields.nil.Faithful where
  plain _ _ hf := nomatch hf
  exact _ _ _ _ hf := nomatch hf

theorem Fields.Faithful.cons (name : String) {c : Codec α} {rest : Fields β} (hc : c.Faithful)
    (hrest : rest.Faithful) : (Fields.cons name c rest).Faithful where
  plain a f hf := by
    rcases List.mem_cons.mp hf with rfl | hf
    · exact hc.plain a.1
    · exact hrest.plain a.2 f hf
  exact {look a} hlook hdirect hdec f hf := by
    simp only [Fields.cons, Machine.eq_some_iff, Option.bind_eq_some_iff] at hdec
    obtain ⟨x, ⟨v, hv, hx⟩, y, hy, rfl⟩ := hdec
    rcases List.mem_cons.mp hf with rfl | hf
    · obtain ⟨hplain, hdir⟩ := hlook name v hv
      exact ⟨v, hv, hc.exact hplain hdir (hdirect _ List.mem_cons_self) hx⟩
    · exact hrest.exact hlook (fun g hg => hdirect g (List.mem_cons_of_mem _ hg)) hy f hf

theorem Fields.Faithful.equiv {F : Fields α} (hF : F.Faithful) {f : β → α} {g : α → β}
    {h : ∀ b, g (f b) = b} (hinv : ∀ a, f (g a) = a) : (F.equiv f g h).Faithful where
  plain b := hF.plain (f b)
  exact hlook hdirect hdec := by
    obtain ⟨a, ha, rfl⟩ := Option.map_eq_some_iff.mp hdec
    have hdirect : F.AllDirect a := hinv a ▸ Fields.allDirect_equiv.mp hdirect
    have hread := hF.exact hlook hdirect ha
    simpa only [Fields.equiv, hinv] using hread

theorem mem_of_lookupText {fields : List (String × Value)} {name : String}
    (h : lookupText (fields.map textEntry) name = some v) : (name, v) ∈ fields := by
  simp only [lookupText, List.findSome?_map, List.findSome?_eq_some_iff] at h
  obtain ⟨_, ⟨key, u⟩, _, rfl, hentry, _⟩ := h
  simp only [textEntry, Function.comp_apply, Option.ite_none_right_eq_some,
    Option.some.injEq] at hentry
  obtain ⟨rfl, rfl⟩ := hentry
  simp

theorem forall₂_of_mapM {f : α → Option β} {xs : List α} {ys : List β} (h : xs.mapM f = some ys) :
    List.Forall₂ (fun x y => f x = some y) xs ys := by
  induction xs generalizing ys with
  | nil =>
    cases h
    exact .nil
  | cons x xs ih =>
    simp only [List.mapM_cons, Machine.eq_some_iff] at h
    obtain ⟨y, hy, ys, hys, rfl⟩ := h
    exact .cons hy (ih hys)

namespace Codec.Faithful

variable {α β : Type}

@[simp] theorem text : Codec.text.Faithful where
  plain := .text
  exact {v a} _ _ _ hdec := by
    cases v <;> cases hdec
    exact .text a

@[simp] theorem u64 : Codec.u64.Faithful where
  plain n := .integer n.toNat
  exact {v a} _ _ _ hdec := by
    cases v with
    | integer n =>
      cases n with
      | ofNat n =>
        obtain ⟨hn, ha⟩ := Option.ite_none_right_eq_some.mp hdec
        cases ha
        have hvalue : (UInt64.ofNat n).toNat = n := UInt64.toNat_ofNat_of_lt' hn
        simp only [Codec.u64, hvalue]
        exact .integer n
      | negSucc n => cases hdec
    | _ => cases hdec

@[simp] theorem byteBuf : Codec.byteBuf.Faithful where
  plain := .bytes
  exact {v a} _ hdirect hnonempty hdec := by
    cases v with
    | bytes data =>
      cases hdec
      exact .bytes a
    | array items =>
      obtain _ | _ | _ | _ | ⟨_, hitem⟩ := hdirect
      obtain _ | ha := hnonempty
      cases items with
      | nil =>
        cases hdec
        exact absurd rfl ha
      | cons item items =>
        obtain ⟨b, _, hb, _⟩ := List.forall₂_cons_left_iff.mp (forall₂_of_mapM hdec)
        cases item with
        | integer n => exact absurd rfl (hitem _ List.mem_cons_self n)
        | _ => cases hb
    | _ => cases hdec

variable {c : Codec α}

/-- Sequences of items that are never read from an integer. -/
theorem seq (hc : c.Faithful) (hint : ∀ n, c.dec (.integer n) = none) : c.seq.Faithful where
  plain as := .array fun v hv => by
    obtain ⟨a, _, rfl⟩ := List.mem_map.mp hv
    exact hc.plain a
  exact {v as} hplain hdirect hwritten hdec := by
    cases v with
    | array items =>
      obtain _ | _ | _ | _ | ⟨hdir, _⟩ := hdirect
      obtain _ | _ | _ | _ | ⟨hdir', _⟩ := hwritten
      obtain ⟨hlength, hread⟩ := List.forall₂_iff_zip.mp (forall₂_of_mapM hdec)
      refine .array (by simpa using hlength) fun p hp => ?_
      rw [List.zip_map_right] at hp
      obtain ⟨⟨v, a⟩, hva, rfl⟩ := List.mem_map.mp hp
      obtain ⟨hv, ha⟩ := List.of_mem_zip hva
      exact hc.exact (plain_array.mp hplain v hv) (hdir v hv) (hdir' _ (List.mem_map_of_mem ha))
        (hread hva)
    | bytes data =>
      obtain _ | hdata := hdirect
      cases data with
      | nil => exact absurd rfl hdata
      | cons b data =>
        have hdec : (b :: data).mapM (fun b => c.dec (.integer b.toNat)) = some as := hdec
        simp [hint] at hdec
    | _ => cases hdec

theorem refine (hc : c.Faithful) {f : β → α} {g : α → Option β} {h : ∀ b, g (f b) = some b}
    (hinv : ∀ {a b}, g a = some b → f b = a) :
    (c.refine f g h).Faithful where
  plain b := hc.plain (f b)
  exact {v b} hplain hdirect hwritten hdec := by
    obtain ⟨a, ha, hb⟩ := Option.bind_eq_some_iff.mp hdec
    obtain rfl := hinv hb
    exact hc.exact hplain hdirect hwritten ha

@[simp] theorem fixedBytes (n : ℕ) : (Codec.fixedBytes n).Faithful :=
  byteBuf.refine fun {data bytes} h => by
    split_ifs at h
    cases h
    rfl

theorem checked {ε : Type} (hc : c.Faithful) (check : α → Except ε Unit) :
    (c.checked check).Faithful :=
  hc.refine fun {a b} h => by
    cases hcheck : Machine.validate check a with
    | error e => simp [hcheck, Except.toOption] at h
    | ok b' =>
      simp only [hcheck, Except.toOption, Option.some.injEq] at h
      exact h ▸ Machine.validate_eq_ok.mp hcheck

theorem struct {F : Fields α} (hF : F.Faithful) (hnames : F.names.Nodup) :
    (Codec.struct F hnames).Faithful where
  plain a := .map (F.enc_names a ▸ hnames) (hF.plain a)
  exact {v a} hplain hdirect hwritten hdec := by
    cases hplain with
    | @map fields hnodup hfields =>
      obtain ⟨hknown, hdec⟩ := Option.ite_none_right_eq_some.mp hdec
      have hdir := direct_fields.mp hdirect
      have hdir' := direct_fields.mp hwritten
      have hread := hF.exact (fun name v hv => ⟨hfields _ (mem_of_lookupText hv),
        hdir _ (mem_of_lookupText hv)⟩) hdir' hdec
      have hsub : ∀ f ∈ fields, f.1 ∈ F.names := by
        simpa [Codec.knownKeys, textEntry] using hknown
      have hperm : (fields.map Prod.fst).Perm ((F.enc a).map Prod.fst) := by
        rw [F.enc_names]
        refine (List.perm_ext_iff_of_nodup hnodup hnames).mpr fun name => ⟨fun h => ?_, fun h => ?_⟩
        · obtain ⟨f, hf, rfl⟩ := List.mem_map.mp h
          exact hsub f hf
        · rw [← F.enc_names a] at h
          obtain ⟨g, hg, rfl⟩ := List.mem_map.mp h
          obtain ⟨v, hv, _⟩ := hread g hg
          exact List.mem_map.mpr ⟨_, mem_of_lookupText hv, rfl⟩
      refine .map hperm fun f hf g hg hname => ?_
      obtain ⟨v, hv, hr⟩ := hread g hg
      rw [← hname, lookupText_of_mem hnodup hf] at hv
      cases hv
      exact hr
    | _ => cases hdec

end Codec.Faithful

end Theyos.Cbor

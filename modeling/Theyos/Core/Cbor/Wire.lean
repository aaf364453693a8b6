import Theyos.Core.Cbor.Codec

/-!
# The shortest definite encoding

CBOR's deterministic wire form: every head takes its shortest length, and lengths come up front. A
reader that follows a bounded nesting reads every untagged tree back, whatever bytes come after
it, so no two untagged trees share their bytes.
-/

namespace Theyos.Cbor

/-- The shortest head of a data item, from its major type and argument. -/
def head (major n : ℕ) : Option (List UInt8) :=
  if n < 24 then some [UInt8.ofNat (32 * major + n)]
  else if n < 256 then some (UInt8.ofNat (32 * major + 24) :: beBytes 1 n)
  else if n < 256 ^ 2 then some (UInt8.ofNat (32 * major + 25) :: beBytes 2 n)
  else if n < 256 ^ 4 then some (UInt8.ofNat (32 * major + 26) :: beBytes 4 n)
  else if n < 256 ^ 8 then some (UInt8.ofNat (32 * major + 27) :: beBytes 8 n)
  else none

variable {major : ℕ}

/-- A head is one byte for a small argument, and otherwise the shortest of four widths. -/
theorem head_eq_some {n : ℕ} {data : List UInt8} (h : head major n = some data) :
    (n < 24 ∧ data = [UInt8.ofNat (32 * major + n)]) ∨
      ∃ k < 4, 24 ≤ n ∧ (∀ j < k, 256 ^ 2 ^ j ≤ n) ∧ n < 256 ^ 2 ^ k ∧
        data = UInt8.ofNat (32 * major + (24 + k)) :: beBytes (2 ^ k) n := by
  unfold head at h
  split_ifs at h with h0 h1 h2 h4 h8 <;> cases h
  · exact .inl ⟨h0, rfl⟩
  · exact .inr ⟨0, by omega, by omega, by simp, h1, rfl⟩
  · refine .inr ⟨1, by omega, by omega, fun j hj => ?_, h2, rfl⟩
    obtain rfl : j = 0 := by omega
    omega
  · refine .inr ⟨2, by omega, by omega, fun j hj => ?_, h4, rfl⟩
    obtain rfl | rfl : j = 0 ∨ j = 1 := by omega
    all_goals omega
  · refine .inr ⟨3, by omega, by omega, fun j hj => ?_, h8, rfl⟩
    obtain rfl | rfl | rfl : j = 0 ∨ j = 1 ∨ j = 2 := by omega
    all_goals omega

theorem compare_leading {i j : ℕ} (hi : i < 32) (hj : j < 32) (xs ys : List UInt8) :
    compare (UInt8.ofNat (32 * major + i) :: xs) (UInt8.ofNat (32 * major + j) :: ys) =
      (compare i j).then (compare xs ys) := by
  have hord : compare ((32 * major + i) % 256) ((32 * major + j) % 256) = compare i j := by
    rcases Nat.lt_trichotomy i j with h | rfl | h
    · rw [Nat.compare_eq_lt.mpr h, Nat.compare_eq_lt.mpr (by omega)]
    · simp
    · rw [Nat.compare_eq_gt.mpr h, Nat.compare_eq_gt.mpr (by omega)]
  rw [List.compare_cons_cons, compare_ofNat, hord]

/-- Shortest heads of one major type are ordered bytewise as their arguments. -/
theorem compare_head {m n : ℕ} {data data' : List UInt8}
    (hdata : head major m = some data) (hdata' : head major n = some data') (x y : List UInt8) :
    compare (data ++ x) (data' ++ y) = (compare m n).then (compare x y) := by
  rcases head_eq_some hdata with ⟨hm, rfl⟩ | ⟨k, hk, hm24, hkm, hm, rfl⟩ <;>
    rcases head_eq_some hdata' with ⟨hn, rfl⟩ | ⟨l, hl, hn24, hln, hn, rfl⟩
  · exact compare_leading (by omega) (by omega) x y
  · rw [List.singleton_append, List.cons_append, compare_leading (by omega) (by omega),
      Nat.compare_eq_lt.mpr (show m < 24 + l by omega), Nat.compare_eq_lt.mpr (show m < n by omega)]
    rfl
  · rw [List.singleton_append, List.cons_append, compare_leading (by omega) (by omega),
      Nat.compare_eq_gt.mpr (show n < 24 + k by omega), Nat.compare_eq_gt.mpr (show n < m by omega)]
    rfl
  · rw [List.cons_append, List.cons_append, compare_leading (by omega) (by omega)]
    rcases Nat.lt_trichotomy k l with h | rfl | h
    · rw [Nat.compare_eq_lt.mpr (by omega), Nat.compare_eq_lt.mpr (hm.trans_le (hln k h))]
      rfl
    · rw [Nat.compare_eq_eq.mpr rfl, Ordering.eq_then, compare_beBytes hm hn]
    · rw [Nat.compare_eq_gt.mpr (by omega), Nat.compare_eq_gt.mpr (hn.trans_le (hkm l h))]
      rfl

mutual

/-- The bytes of a data item; a length of more than 64 bits has no encoding. -/
def encode : Value → Option (List UInt8)
  | .integer (.ofNat n) => head 0 n
  | .integer (.negSucc n) => head 1 n
  | .bytes data => do return (← head 2 data.length) ++ data
  | .text s => do return (← head 3 (textBytes s).length) ++ textBytes s
  | .array items => do return (← head 4 items.length) ++ (← encodeItems items)
  | .map entries => do return (← head 5 entries.length) ++ (← encodeEntries entries)
  | .tag number content => do return (← head 6 number.toNat) ++ (← encode content)
  | .bool false => some [0xf4]
  | .bool true => some [0xf5]
  | .null => some [0xf6]
  | .float bits => some (0xfb :: beBytes 8 bits.toNat)

/-- The items of an array, one after the other. -/
def encodeItems : List Value → Option (List UInt8)
  | [] => some []
  | v :: vs => do return (← encode v) ++ (← encodeItems vs)

/-- The entries of a map, each key before its value. -/
def encodeEntries : List (Value × Value) → Option (List UInt8)
  | [] => some []
  | (k, v) :: rest => do return (← encode k) ++ ((← encode v) ++ (← encodeEntries rest))

end

/-- Exactly `n` bytes off the front. -/
def readChunk (n : ℕ) (input : List UInt8) : Option (List UInt8 × List UInt8) :=
  if n ≤ input.length then some (input.take n, input.drop n) else none

theorem readChunk_append {n : ℕ} {chunk : List UInt8} (h : chunk.length = n)
    (rest : List UInt8) : readChunk n (chunk ++ rest) = some (chunk, rest) := by
  subst h
  simp [readChunk]

/-- A head's major type and argument. -/
def readHead : List UInt8 → Option ((ℕ × ℕ) × List UInt8)
  | [] => none
  | b :: input =>
    if b.toNat % 32 < 24 then some ((b.toNat / 32, b.toNat % 32), input)
    else if b.toNat % 32 < 28 then
      (readChunk (2 ^ (b.toNat % 32 - 24)) input).map fun (chunk, input) =>
        ((b.toNat / 32, beNat chunk), input)
    else none

variable {major depth : ℕ}

theorem readHead_wide {k n : ℕ} (hmajor : major < 7) (hk : k < 4) (hn : n < 256 ^ 2 ^ k)
    (rest : List UInt8) :
    readHead (UInt8.ofNat (32 * major + (24 + k)) :: (beBytes (2 ^ k) n ++ rest)) =
      some ((major, n), rest) := by
  have hbyte : (UInt8.ofNat (32 * major + (24 + k))).toNat = 32 * major + (24 + k) :=
    UInt8.toNat_ofNat_of_lt' (by simp [UInt8.size]; omega)
  have hinfo : (32 * major + (24 + k)) % 32 = 24 + k := by omega
  have hdiv : (32 * major + (24 + k)) / 32 = major := by omega
  rw [readHead, hbyte, hinfo, hdiv, if_neg (by omega), if_pos (by omega), Nat.add_sub_cancel_left,
    readChunk_append (by simp [beBytes])]
  simp only [Option.map_some, beNat_beBytes hn]

variable {data : List UInt8}

/-- A shortest head is read back. -/
theorem readHead_head {n : ℕ} (hmajor : major < 7)
    (h : head major n = some data) (rest : List UInt8) :
    readHead (data ++ rest) = some ((major, n), rest) := by
  rcases head_eq_some h with ⟨h0, rfl⟩ | ⟨k, hk, _, _, hn, rfl⟩
  · have hbyte : (UInt8.ofNat (32 * major + n)).toNat = 32 * major + n :=
      UInt8.toNat_ofNat_of_lt' (by simp [UInt8.size]; omega)
    have hinfo : (32 * major + n) % 32 = n := by omega
    have hdiv : (32 * major + n) / 32 = major := by omega
    rw [List.singleton_append, readHead, hbyte, hinfo, hdiv, if_pos h0]
  · exact readHead_wide hmajor hk hn rest

/-- A reader run `n` times. -/
def readMany {α : Type} (read : List UInt8 → Option (α × List UInt8)) :
    ℕ → List UInt8 → Option (List α × List UInt8)
  | 0, input => some ([], input)
  | n + 1, input => do
    let (a, input) ← read input
    let (as, input) ← readMany read n input
    return (a :: as, input)

theorem isValidUTF8_of_ascii {data : List UInt8} (h : data.all (· < 0x80)) :
    ByteArray.IsValidUTF8 ⟨⟨data⟩⟩ := by
  have hencode : (data.map fun b => Char.ofNat b.toNat).flatMap String.utf8EncodeChar = data := by
    induction data with
    | nil => rfl
    | cons b data ih =>
      obtain ⟨hb, hdata⟩ := Bool.and_eq_true_iff.mp h
      replace hb : b.toNat < 128 := of_decide_eq_true hb
      have hvalid : b.toNat.isValidChar := .inl (by omega)
      have hval : (Char.ofNat b.toNat).val.toNat = b.toNat := by
        rw [Char.ofNat, dif_pos hvalid]
        rfl
      simp [String.utf8EncodeChar, hval, Nat.le_of_lt_succ hb, ih hdata]
  refine .intro (data.map fun b => Char.ofNat b.toNat) (ByteArray.ext ?_)
  simp [List.utf8Encode, hencode]

/-- The text of a byte string, if it is one. -/
def readText (data : List UInt8) : Option String :=
  -- The validity of ASCII needs no decoding, which evaluates slowly.
  if h : data.all (· < 0x80) then some (.fromUTF8 ⟨⟨data⟩⟩ (isValidUTF8_of_ascii h))
  else String.fromUTF8? ⟨⟨data⟩⟩

theorem readText_eq (data : List UInt8) : readText data = String.fromUTF8? ⟨⟨data⟩⟩ := by
  rw [readText]
  split
  · rw [String.fromUTF8?, dif_pos]
  · rfl

theorem readText_textBytes (s : String) : readText (textBytes s) = some s :=
  (readText_eq _).trans (dif_pos s.isValidUTF8)

/-- A simple value off the front. -/
def readSimple : List UInt8 → Option (Value × List UInt8)
  | [] => none
  | b :: input =>
    if b = 0xf4 then some (.bool false, input)
    else if b = 0xf5 then some (.bool true, input)
    else if b = 0xf6 then some (.null, input)
    else none

/-- A map entry off the front, with a reader for its key and value. -/
def readEntry (read : List UInt8 → Option (Value × List UInt8)) (input : List UInt8) :
    Option ((Value × Value) × List UInt8) := do
  let (k, input) ← read input
  let (v, input) ← read input
  return ((k, v), input)

/-- The content behind a head, with a reader for nested items. -/
def readContent (read : List UInt8 → Option (Value × List UInt8)) (major n : ℕ)
    (input : List UInt8) : Option (Value × List UInt8) :=
  match major with
  | 0 => some (.integer (.ofNat n), input)
  | 1 => some (.integer (.negSucc n), input)
  | 2 => (readChunk n input).map fun (data, input) => (.bytes data, input)
  | 3 => do
    let (data, input) ← readChunk n input
    return (.text (← readText data), input)
  | 4 => (readMany read n input).map fun (items, input) => (.array items, input)
  | 5 => (readMany (readEntry read) n input).map fun (entries, input) => (.map entries, input)
  | _ => none

/-- A data item off the front, following the given nesting. -/
def decode : ℕ → List UInt8 → Option (Value × List UInt8)
  | 0, _ => none
  | depth + 1, input => (readSimple input).or do
    let ((major, n), input) ← readHead input
    readContent (decode depth) major n input

variable {input : List UInt8} {α : Type}

theorem readMany_mono {read read' : List UInt8 → Option (α × List UInt8)}
    (h : ∀ input r, read input = some r → read' input = some r) {n : ℕ} {r : List α × List UInt8}
    (hread : readMany read n input = some r) :
    readMany read' n input = some r := by
  induction n generalizing input r with
  | zero => exact hread
  | succ n ih =>
    simp only [readMany, Machine.eq_some_iff] at hread ⊢
    obtain ⟨a, ha, as, has, rfl⟩ := hread
    exact ⟨a, h _ _ ha, as, ih has, rfl⟩

theorem readContent_mono {read read' : List UInt8 → Option (Value × List UInt8)}
    (h : ∀ input r, read input = some r → read' input = some r) {n : ℕ} {r : Value × List UInt8}
    (hread : readContent read major n input = some r) :
    readContent read' major n input = some r := by
  unfold readContent at hread ⊢
  split at hread
  · exact hread
  · exact hread
  · exact hread
  · exact hread
  · obtain ⟨items, hitems, rfl⟩ := Option.map_eq_some_iff.mp hread
    exact Option.map_eq_some_iff.mpr ⟨items, readMany_mono h hitems, rfl⟩
  · obtain ⟨entries, hentries, rfl⟩ := Option.map_eq_some_iff.mp hread
    refine Option.map_eq_some_iff.mpr ⟨entries, readMany_mono (fun input r hr => ?_) hentries, rfl⟩
    simp only [readEntry, Machine.eq_some_iff] at hr ⊢
    obtain ⟨k, hk, v, hv, rfl⟩ := hr
    exact ⟨k, h _ _ hk, v, h _ _ hv, rfl⟩
  · cases hread

/-- A reader that follows more nesting reads the same. -/
theorem decode_mono {d e : ℕ} (hde : d ≤ e) {r : Value × List UInt8} (h : decode d input = some r) :
    decode e input = some r := by
  induction d generalizing e input r with
  | zero => cases h
  | succ d ih =>
    obtain ⟨e, rfl⟩ := Nat.exists_eq_add_of_lt (Nat.lt_of_succ_le hde)
    rw [decode, Option.or_eq_some_iff] at h ⊢
    refine h.imp id fun ⟨hsimple, h⟩ => ⟨hsimple, ?_⟩
    simp only [Machine.eq_some_iff] at h ⊢
    obtain ⟨start, hstart, h⟩ := h
    exact ⟨start, hstart, readContent_mono (fun _ _ => ih (by omega)) h⟩
variable {data : List UInt8}

theorem readSimple_head {n : ℕ} (hmajor : major < 7)
    (h : head major n = some data) (rest : List UInt8) : readSimple (data ++ rest) = none := by
  have hsmall (info : ℕ) (hinfo : info < 32) (tail : List UInt8) :
      readSimple (UInt8.ofNat (32 * major + info) :: tail) = none := by
    have hbyte : (UInt8.ofNat (32 * major + info)).toNat = 32 * major + info :=
      UInt8.toNat_ofNat_of_lt' (by simp [UInt8.size]; omega)
    have hne (b : UInt8) (hb : 224 ≤ b.toNat) : UInt8.ofNat (32 * major + info) ≠ b := by
      rintro rfl
      omega
    rw [readSimple, if_neg (hne 0xf4 (by decide)), if_neg (hne 0xf5 (by decide)),
      if_neg (hne 0xf6 (by decide))]
  rcases head_eq_some h with ⟨h0, rfl⟩ | ⟨k, hk, _, _, _, rfl⟩ <;> exact hsmall _ (by omega) _

/-- Behind a head, a data item is read as its content. -/
theorem decode_head {n : ℕ} (hmajor : major < 7)
    (h : head major n = some data) (rest : List UInt8) :
    decode (depth + 1) (data ++ rest) = readContent (decode depth) major n rest := by
  rw [decode, readSimple_head hmajor h, readHead_head hmajor h]
  rfl

/-- A data item written as a head and a body is read as the content of its body. -/
theorem decode_headed {n : ℕ} (hmajor : major < 7) {body : Option (List UInt8)}
    (h : (do return (← head major n) ++ (← body)) = some data) :
    ∃ content, body = some content ∧ ∀ rest, decode (depth + 1) (data ++ rest) =
      readContent (decode depth) major n (content ++ rest) := by
  simp only [Machine.eq_some_iff] at h
  obtain ⟨start, hstart, content, hcontent, rfl⟩ := h
  refine ⟨content, hcontent, fun rest => ?_⟩
  rw [List.append_assoc, decode_head hmajor hstart]

/-- A reader of single items reads back a sequence of written ones. -/
theorem readMany_append {read : List UInt8 → Option (α × List UInt8)}
    {write : α → Option (List UInt8)} {as : List α}
    (hread : ∀ a ∈ as, ∀ data, write a = some data → ∀ rest, read (data ++ rest) = some (a, rest))
    {chunks : List (List UInt8)} (h : as.mapM write = some chunks) (rest : List UInt8) :
    readMany read as.length (chunks.flatten ++ rest) = some (as, rest) := by
  induction as generalizing chunks with
  | nil => cases h; rfl
  | cons a as ih =>
    simp only [List.mapM_cons, Machine.eq_some_iff] at h
    obtain ⟨first, hfirst, others, hothers, rfl⟩ := h
    have htail := ih (fun b hb => hread b (List.mem_cons_of_mem a hb)) hothers
    simp [readMany, hread a List.mem_cons_self first hfirst, htail]

/-- The bytes of one map entry. -/
def encodeEntry (entry : Value × Value) : Option (List UInt8) := do
  return (← encode entry.1) ++ (← encode entry.2)

theorem encodeItems_eq (items : List Value) :
    encodeItems items = (items.mapM encode).map List.flatten := by
  induction items with
  | nil => rfl
  | cons v items ih =>
    cases hv : encode v <;> cases hvs : items.mapM encode <;> simp [encodeItems, ih, hv, hvs]

theorem encodeEntries_eq (entries : List (Value × Value)) :
    encodeEntries entries = (entries.mapM encodeEntry).map List.flatten := by
  induction entries with
  | nil => rfl
  | cons e entries ih =>
    cases hk : encode e.1 <;> cases hv : encode e.2 <;> cases hes : entries.mapM encodeEntry <;>
      simp [encodeEntries, encodeEntry, ih, hk, hv, hes]

theorem decode_text {s : String} (h : encode (.text s) = some data)
    (rest : List UInt8) :
    decode (depth + 1) (data ++ rest) = some (.text s, rest) := by
  have hwritten : (do return (← head 3 (textBytes s).length) ++ (← some (textBytes s))) =
      some data := h
  obtain ⟨_, ⟨⟩, hdecode⟩ := decode_headed (by omega) hwritten
  rw [hdecode]
  simp [readContent, readChunk_append, readText_textBytes]

/-- The trees without tags and floats, with nesting at most `d`. -/
inductive Untagged : ℕ → Value → Prop
  | integer {d} (n : Int) : Untagged d (.integer n)
  | bytes {d} (data : List UInt8) : Untagged d (.bytes data)
  | text {d} (s : String) : Untagged d (.text s)
  | bool {d} (b : Bool) : Untagged d (.bool b)
  | null {d} : Untagged d .null
  | array {d} {items : List Value} (h : ∀ v ∈ items, Untagged d v) :
      Untagged (d + 1) (.array items)
  | map {d} {entries : List (Value × Value)} (hkey : ∀ e ∈ entries, Untagged d e.1)
      (h : ∀ e ∈ entries, Untagged d e.2) : Untagged (d + 1) (.map entries)

theorem Untagged.mono {d e : ℕ} {v : Value} (h : Untagged d v) (hde : d ≤ e) : Untagged e v := by
  induction h generalizing e with
  | integer n | bytes data | text s | bool b | null => constructor
  | array _ ih =>
    obtain ⟨e, rfl⟩ := Nat.exists_eq_add_of_lt (Nat.lt_of_succ_le hde)
    exact .array fun v hv => ih v hv (by omega)
  | map _ _ ihkey ih =>
    obtain ⟨e, rfl⟩ := Nat.exists_eq_add_of_lt (Nat.lt_of_succ_le hde)
    exact .map (fun f hf => ihkey f hf (by omega)) fun f hf => ih f hf (by omega)

theorem Storable.untagged {d : ℕ} {v : Value} (h : Storable d v) : Untagged d v := by
  induction h with
  | integer _ | bytes data | text s | bool b | null => constructor
  | array _ ih => exact .array ih
  | map _ ih =>
    refine .map (fun e he => ?_) fun e he => ?_
    · obtain ⟨f, _, rfl⟩ := List.mem_map.mp he
      exact .text f.1
    · obtain ⟨f, hf, rfl⟩ := List.mem_map.mp he
      exact ih f hf

/-- Every untagged tree is read back from its bytes, whatever comes after them. -/
theorem Untagged.decode_encode {d : ℕ} {v : Value} (hv : Untagged d v)
    (h : encode v = some data) (rest : List UInt8) :
    decode (d + 1) (data ++ rest) = some (v, rest) := by
  induction hv generalizing data rest with
  | integer n =>
    cases n with
    | ofNat n | negSucc n => exact decode_head (by omega) h rest
  | bytes bs =>
    have hwritten : (do return (← head 2 bs.length) ++ (← some bs)) = some data := h
    obtain ⟨_, ⟨⟩, hdecode⟩ := decode_headed (by omega) hwritten
    rw [hdecode]
    simp [readContent, readChunk_append]
  | text s => exact decode_text h rest
  | bool b => cases b <;> cases h <;> rfl
  | null => cases h; rfl
  | @array d items _ ih =>
    rw [encode, encodeItems_eq] at h
    obtain ⟨_, hbody, hdecode⟩ := decode_headed (by omega) h
    obtain ⟨chunks, hchunks, rfl⟩ := Option.map_eq_some_iff.mp hbody
    rw [hdecode]
    have hitems := readMany_append (fun v hv _ hdata rest => ih v hv hdata rest) hchunks rest
    simp [readContent, hitems]
  | @map d entries _ _ ihkey ih =>
    rw [encode, encodeEntries_eq] at h
    obtain ⟨_, hbody, hdecode⟩ := decode_headed (by omega) h
    obtain ⟨chunks, hchunks, rfl⟩ := Option.map_eq_some_iff.mp hbody
    have hread : ∀ e ∈ entries, ∀ data, encodeEntry e = some data → ∀ rest,
        readEntry (decode (d + 1)) (data ++ rest) = some (e, rest) := by
      intro e he data hdata rest
      simp only [encodeEntry, Machine.eq_some_iff] at hdata
      obtain ⟨key, hkey, content, hcontent, rfl⟩ := hdata
      simp [readEntry, ihkey e he hkey, ih e he hcontent]
    rw [hdecode]
    simp only [readContent, readMany_append hread hchunks rest, Option.map_some]

/-- Every plain tree is read back from its bytes, whatever comes after them. -/
theorem decode_encode {d : ℕ} {v : Value} (hv : Storable d v)
    (h : encode v = some data) (rest : List UInt8) :
    decode (d + 1) (data ++ rest) = some (v, rest) :=
  hv.untagged.decode_encode h rest

/-- Different untagged trees have different bytes. -/
theorem Untagged.encode_inj {d e : ℕ} {u v : Value} (hu : Untagged d u) (hv : Untagged e v)
    (hdata : encode u = some data) (hdata' : encode v = some data) : u = v := by
  have hu' := (hu.mono (le_max_left d e)).decode_encode hdata []
  have hv' := (hv.mono (le_max_right d e)).decode_encode hdata' []
  simpa using hu'.symm.trans hv'

/-- Text keys are ordered bytewise in their encodings as by length first. -/
theorem compare_encode_text {s t : String} {data data' : List UInt8}
    (hs : encode (.text s) = some data) (ht : encode (.text t) = some data') :
    compare data data' = textOrder s t := by
  simp only [encode, Machine.eq_some_iff] at hs ht
  obtain ⟨start, hstart, rfl⟩ := hs
  obtain ⟨start', hstart', rfl⟩ := ht
  exact compare_head hstart hstart' _ _

/-- The deterministic library: shortest encodings, and length-first order of the keys. -/
def deterministic : Ciborium where
  intoWriter := encode
  fromReader data := (decode (recursionLimit + 1) data).map Prod.fst
  canonicalCmp
    | .text s, .text t => textOrder s t
    | a, b => compareLex (compareOn List.length) compare ((encode a).getD []) ((encode b).getD [])

theorem deterministic_lawful : deterministic.Lawful where
  textFirst _ _ := rfl
  fromReader_intoWriter hv h := by
    have hread := decode_encode hv h []
    rw [List.append_nil] at hread
    simp [deterministic, hread]

/-- The writer and reader of a shape over the deterministic library. -/
def Codec.serde {α : Type} (c : Codec α) : Serde α where
  intoWriter a := encode (c.enc a)
  fromReader data := (deterministic.fromReader data).bind c.dec

theorem Codec.serde_derived (c : Codec α) : c.serde.Derived deterministic c where
  intoWriter_eq _ := rfl
  fromReader_eq hv h hdec := by
    simp [serde, deterministic_lawful.fromReader_intoWriter hv h, hdec]

end Theyos.Cbor

import Mathlib.Data.UInt

/-!
# Fixed-width integers, length-framed fields and texts

A digest over several variable-length fields is only as good as its preimage. Framing each field
by its eight-byte length makes the concatenation unambiguous: equal preimages have equal fields.
-/

namespace Theyos

/-- Little-endian bytes of a natural number at a fixed width. -/
def leBytes : ℕ → ℕ → List UInt8
  | 0, _ => []
  | w + 1, n => UInt8.ofNat n :: leBytes w (n / 256)

/-- Big-endian bytes of a natural number at a fixed width. -/
def beBytes (w n : ℕ) : List UInt8 := (leBytes w n).reverse

@[simp] theorem length_leBytes (w n : ℕ) : (leBytes w n).length = w := by
  induction w generalizing n with
  | zero => rfl
  | succ w ih => simp [leBytes, ih]

/-- The number a little-endian byte string stands for. -/
def leNat : List UInt8 → ℕ
  | [] => 0
  | b :: bs => b.toNat + 256 * leNat bs

/-- The number a big-endian byte string stands for. -/
def beNat (bs : List UInt8) : ℕ := leNat bs.reverse

theorem leNat_leBytes {w n : ℕ} (h : n < 256 ^ w) : leNat (leBytes w n) = n := by
  induction w generalizing n with
  | zero => simp at h; simp [leBytes, leNat, h]
  | succ w ih =>
    have hhigh := ih (n := n / 256) (by rw [Nat.pow_succ] at h; omega)
    simp only [leBytes, leNat, hhigh, UInt8.toNat_ofNat']
    omega

@[simp] theorem length_beBytes (w n : ℕ) : (beBytes w n).length = w := by
  simp [beBytes]

theorem beNat_beBytes {w n : ℕ} (h : n < 256 ^ w) : beNat (beBytes w n) = n := by
  rw [beNat, beBytes, List.reverse_reverse, leNat_leBytes h]

theorem beBytes_succ (w n : ℕ) : beBytes (w + 1) n = beBytes w (n / 256) ++ [UInt8.ofNat n] := by
  simp [beBytes, leBytes]

theorem compare_ofNat (m n : ℕ) :
    compare (UInt8.ofNat m) (UInt8.ofNat n) = compare (m % 256) (n % 256) := by
  simp only [compare, compareOfLessAndEq, UInt8.lt_iff_toNat_lt, ← UInt8.toNat_inj,
    UInt8.toNat_ofNat', Nat.reducePow]

theorem compare_divMod (m n : ℕ) :
    compare m n = (compare (m / 256) (n / 256)).then (compare (m % 256) (n % 256)) := by
  rcases Nat.lt_trichotomy (m / 256) (n / 256) with h | h | h
  · rw [Nat.compare_eq_lt.mpr h, Nat.compare_eq_lt.mpr (by omega)]
    rfl
  · rw [h, Nat.compare_eq_eq.mpr rfl, Ordering.eq_then]
    rcases Nat.lt_trichotomy (m % 256) (n % 256) with h' | h' | h'
    · rw [Nat.compare_eq_lt.mpr h', Nat.compare_eq_lt.mpr (by omega)]
    · rw [Nat.compare_eq_eq.mpr h', Nat.compare_eq_eq.mpr (by omega)]
    · rw [Nat.compare_eq_gt.mpr h', Nat.compare_eq_gt.mpr (by omega)]
  · rw [Nat.compare_eq_gt.mpr h, Nat.compare_eq_gt.mpr (by omega)]
    rfl

/-- At a fixed width the bytewise order of big-endian numbers is the order of the numbers. -/
theorem compare_beBytes {w m n : ℕ} (hm : m < 256 ^ w) (hn : n < 256 ^ w) (x y : List UInt8) :
    compare (beBytes w m ++ x) (beBytes w n ++ y) = (compare m n).then (compare x y) := by
  induction w generalizing m n x y with
  | zero =>
    obtain rfl : m = 0 := by simpa using hm
    obtain rfl : n = 0 := by simpa using hn
    rfl
  | succ w ih =>
    rw [beBytes_succ, beBytes_succ, List.append_assoc, List.append_assoc,
      ih (by omega) (by omega), List.singleton_append, List.singleton_append,
      List.compare_cons_cons, compare_ofNat, ← Ordering.then_assoc, ← compare_divMod]

/-- A fixed width determines every number that fits in it. -/
theorem leBytes_inj {w m n : ℕ} (hm : m < 256 ^ w) (hn : n < 256 ^ w)
    (h : leBytes w m = leBytes w n) : m = n := by
  rw [← leNat_leBytes hm, h, leNat_leBytes hn]

/-- One field behind its eight-byte little-endian length. -/
def frame (field : List UInt8) : List UInt8 := leBytes 8 field.length ++ field

/-- Consecutive framed fields. -/
def frames (fields : List (List UInt8)) : List UInt8 := fields.flatMap frame

/-- A framed field is recovered from any input that starts with it. -/
theorem frame_append_inj {f g : List UInt8} {rest rest' : List UInt8}
    (hf : f.length < 2 ^ 64) (hg : g.length < 2 ^ 64)
    (h : frame f ++ rest = frame g ++ rest') : f = g ∧ rest = rest' := by
  simp only [frame, List.append_assoc] at h
  obtain ⟨hlen, hbody⟩ := List.append_inj h (by simp)
  have hl : f.length = g.length := leBytes_inj (by simpa using hf) (by simpa using hg) hlen
  exact List.append_inj hbody hl

/-- Framing is unambiguous over any number of fields. -/
theorem frames_inj {fs gs : List (List UInt8)} (hf : ∀ f ∈ fs, f.length < 2 ^ 64)
    (hg : ∀ g ∈ gs, g.length < 2 ^ 64) (h : frames fs = frames gs) : fs = gs := by
  have hne (f : List UInt8) (fs : List (List UInt8)) : frames (f :: fs) ≠ [] := by
    refine List.ne_nil_of_length_pos ?_
    simp only [frames, frame, List.flatMap_cons, List.length_append, length_leBytes]
    omega
  induction fs generalizing gs with
  | nil =>
    cases gs with
    | nil => rfl
    | cons g gs => exact absurd h.symm (hne g gs)
  | cons f fs ih =>
    cases gs with
    | nil => exact absurd h (hne f fs)
    | cons g gs =>
      obtain ⟨hhead, htail⟩ := frame_append_inj (hf f (List.mem_cons_self ..))
        (hg g (List.mem_cons_self ..)) h
      rw [hhead, ih (fun x hx => hf x (List.mem_cons_of_mem _ hx))
        (fun x hx => hg x (List.mem_cons_of_mem _ hx)) htail]

/-- The UTF-8 bytes of a text. -/
def textBytes (s : String) : List UInt8 := s.toUTF8.data.toList

theorem textBytes_injective : Function.Injective textBytes := fun _ _ h =>
  String.toByteArray_inj.mp (ByteArray.ext (Array.toList_inj.mp h))

/-- The lowercase hexadecimal digit of a number below sixteen. -/
def hexDigit (n : ℕ) : Char := "0123456789abcdef".toList.getD n '0'

theorem hexDigit_inj {m n : ℕ} (hm : m < 16) (hn : n < 16) (h : hexDigit m = hexDigit n) :
    m = n := by
  have hall : ∀ a : Fin 16, ∀ b : Fin 16, hexDigit a = hexDigit b → a = b := by decide
  have he := hall ⟨m, hm⟩ ⟨n, hn⟩ h
  exact congrArg Fin.val he

/-- Two lowercase hexadecimal digits for each byte, the high half first. -/
def hexText (bytes : List UInt8) : String :=
  String.ofList (bytes.flatMap fun b => [hexDigit (b.toNat / 16), hexDigit (b.toNat % 16)])

/-- Hexadecimal text determines its bytes. -/
theorem hexText_inj {bs cs : List UInt8} (h : hexText bs = hexText cs) : bs = cs := by
  unfold hexText at h
  rw [String.ofList_inj] at h
  induction bs generalizing cs with
  | nil =>
    cases cs with
    | nil => rfl
    | cons c cs => simp at h
  | cons b bs ih =>
    cases cs with
    | nil => simp at h
    | cons c cs =>
      simp only [List.flatMap_cons, List.cons_append, List.nil_append, List.cons.injEq] at h
      obtain ⟨hhigh, hlow, hrest⟩ := h
      have hb := b.toNat_lt
      have hc := c.toNat_lt
      have h1 := hexDigit_inj (by omega) (by omega) hhigh
      have h2 := hexDigit_inj (by omega) (by omega) hlow
      have hbc : b = c := UInt8.toNat_inj.mp (by omega)
      rw [hbc, ih hrest]

end Theyos

import Mathlib.Data.List.DropRight
import Mathlib.Data.Nat.Digits.Lemmas

/-!
# Plain text

Text is a list of characters. Trimming removes white space at both ends, and a decimal
numeral is read digit by digit against the largest number that fits, so that the reading
says which fault comes first.
-/

namespace Theyos.Text

/-- The characters with the White_Space property. -/
def whiteSpace (c : Char) : Bool :=
  (9 ≤ c.toNat && c.toNat ≤ 13) || (0x2000 ≤ c.toNat && c.toNat ≤ 0x200A) ||
    [0x20, 0x85, 0xA0, 0x1680, 0x2028, 0x2029, 0x202F, 0x205F, 0x3000].contains c.toNat

/-- The text without white space at its ends. -/
def trim (text : List Char) : List Char := (text.dropWhile whiteSpace).rdropWhile whiteSpace

variable {text : List Char}

/-- A text that neither starts nor ends with white space is not trimmed. -/
theorem trim_eq_self (hhead : ∀ c ∈ text.head?, whiteSpace c = false)
    (hlast : ∀ c ∈ text.getLast?, whiteSpace c = false) : trim text = text := by
  have hleft : text.dropWhile whiteSpace = text := by
    cases text with
    | nil => rfl
    | cons c text => rw [List.dropWhile_cons_of_neg]; simp [hhead c rfl]
  rw [trim, hleft, List.rdropWhile_eq_self_iff]
  intro hne
  rw [hlast _ (List.getLast?_eq_some_getLast hne)]
  exact Bool.false_ne_true

/-- Why a numeral is not read. -/
inductive ParseIntError where
  | empty
  | invalidDigit
  | posOverflow
  deriving DecidableEq, Repr

/-- Read the digits of a number that is at most `max`. -/
def parseDigits (max : ℕ) : ℕ → List Char → Except ParseIntError ℕ
  | value, [] => .ok value
  | value, c :: text =>
    if !c.isDigit then .error .invalidDigit
    else if max < 10 * value + (c.toNat - '0'.toNat) then .error .posOverflow
    else parseDigits max (10 * value + (c.toNat - '0'.toNat)) text

/-- Read an unsigned number; a plus sign may stand before its digits. -/
def parseUnsigned (max : ℕ) : List Char → Except ParseIntError ℕ
  | [] => .error .empty
  | ['+'] => .error .invalidDigit
  | '+' :: text => parseDigits max 0 text
  | text => parseDigits max 0 text

theorem le_ofDigitChars (text : List Char) (value : ℕ) :
    value ≤ Nat.ofDigitChars 10 text value := by
  induction text generalizing value with
  | nil => exact Nat.le_refl value
  | cons c text ih =>
    rw [Nat.ofDigitChars_cons]
    exact le_trans (by omega) (ih _)

variable {max n : ℕ}

/-- Digits of a number that fits are read as that number. -/
theorem parseDigits_eq_ok {value : ℕ} (hdigits : ∀ c ∈ text, c.isDigit = true)
    (hfits : Nat.ofDigitChars 10 text value ≤ max) :
    parseDigits max value text = .ok (Nat.ofDigitChars 10 text value) := by
  induction text generalizing value with
  | nil => rfl
  | cons c text ih =>
    rw [Nat.ofDigitChars_cons] at hfits ⊢
    have hle := le_ofDigitChars text (10 * value + (c.toNat - '0'.toNat))
    rw [parseDigits, if_neg (by simp [hdigits c List.mem_cons_self]), if_neg (by omega)]
    exact ih (fun c hc => hdigits c (List.mem_cons_of_mem _ hc)) hfits

/-- What is read is at most the largest number that fits. -/
theorem parseDigits_le {value : ℕ} (hvalue : value ≤ max) (h : parseDigits max value text = .ok n) :
    n ≤ max := by
  induction text generalizing value with
  | nil => exact Except.ok.inj h ▸ hvalue
  | cons c text ih =>
    rw [parseDigits] at h
    split at h
    · cases h
    · split at h
      · cases h
      · exact ih (by omega) h

theorem parseUnsigned_le (h : parseUnsigned max text = .ok n) : n ≤ max := by
  unfold parseUnsigned at h
  split at h
  · cases h
  · cases h
  · exact parseDigits_le (Nat.zero_le max) h
  · exact parseDigits_le (Nat.zero_le max) h

/-- The numeral of a number that fits is read back. -/
theorem parseUnsigned_toDigits (h : n ≤ max) : parseUnsigned max (Nat.toDigits 10 n) = .ok n := by
  have hdigits : ∀ c ∈ Nat.toDigits 10 n, c.isDigit = true :=
    fun c hc => Nat.isDigit_of_mem_toDigits (by decide) (by decide) hc
  have hvalue : Nat.ofDigitChars 10 (Nat.toDigits 10 n) 0 = n :=
    Nat.ofDigitChars_toDigits (by decide) (by decide)
  have hread := parseDigits_eq_ok hdigits (le_of_eq_of_le hvalue h)
  rw [hvalue] at hread
  unfold parseUnsigned
  split
  · rename_i hnil
    exact absurd hnil Nat.toDigits_ne_nil
  · rename_i hplus
    exact absurd (hdigits '+' (hplus ▸ List.mem_cons_self)) (by decide)
  · rename_i hplus
    exact absurd (hdigits '+' (hplus ▸ List.mem_cons_self)) (by decide)
  · exact hread

end Theyos.Text

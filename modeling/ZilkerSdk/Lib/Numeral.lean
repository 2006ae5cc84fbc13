import Mathlib.Algebra.Group.Nat.Defs
import Mathlib.Data.List.Induction
import Mathlib.Data.List.TakeWhile

/-!
# Integers in text

How the C library finds an integer at the beginning of a text: white space, a sign, a prefix that
chooses the base, and as many digits as there are.  What is left behind the digits is returned, so
that a caller can tell whether the text was an integer and nothing else.
-/

namespace ZilkerSdk.Lib

open List

/-! ## Digits -/

/-- `isspace` in the C locale. -/
def isSpace (c : Char) : Bool := c = ' ' || ('\t' ≤ c && c ≤ '\r')

/-- What a character stands for as a digit of some base up to 36. -/
def digitValue (c : Char) : Option Nat :=
  if c.isDigit then some (c.toNat - '0'.toNat)
  else if c.isLower then some (c.toNat - 'a'.toNat + 10)
  else if c.isUpper then some (c.toNat - 'A'.toNat + 10)
  else none

def isDigitOf (base : Nat) (c : Char) : Bool := (digitValue c).any (· < base)

/-- The number that a string of digits stands for. -/
def valueOf (base : Nat) (digits : List Char) : Nat :=
  digits.foldl (fun n c => base * n + (digitValue c).getD 0) 0

def IsNumeral (s : List Char) : Prop := s ≠ [] ∧ ∀ c ∈ s, c.isDigit

instance (s : List Char) : Decidable (IsNumeral s) :=
  @instDecidableAnd _ _ _ (List.decidableBAll _ s)

/-! ## Finding an integer -/

/-- What was found: the sign, the number and the text behind it. -/
structure Scanned where
  negative : Bool
  magnitude : Nat
  rest : List Char
deriving DecidableEq

/-- Does the text begin with a prefix for base 16 and a digit? -/
def hasHexPrefix : List Char → Bool
  | '0' :: x :: c :: _ => (x = 'x' || x = 'X') && isDigitOf 16 c
  | _ => false

/-- The base and the text of the digits.  Base 0 leaves the choice to the text. -/
def chooseBase (base : Nat) (s : List Char) : Nat × List Char :=
  if (base = 0 || base = 16) && hasHexPrefix s then (16, s.drop 2)
  else if base = 0 then (if s.head? = some '0' then 8 else 10, s)
  else (base, s)

def takeSign : List Char → Bool × List Char
  | '-' :: s => (true, s)
  | '+' :: s => (false, s)
  | s => (false, s)

/-- The integer at the beginning of a text.  Where there is none the text is returned as it is, with
the number zero. -/
def scanInteger (base : Nat) (s : List Char) : Scanned :=
  let signed := takeSign (s.dropWhile isSpace)
  let chosen := chooseBase base signed.2
  let digits := chosen.2.takeWhile (isDigitOf chosen.1)
  if digits = [] then ⟨false, 0, s⟩
  else ⟨signed.1, valueOf chosen.1 digits, chosen.2.dropWhile (isDigitOf chosen.1)⟩

/-! ## Printed numbers -/

/-- `%u` -/
def decimal (n : Nat) : List Char := Nat.toDigits 10 n

/-- `%d` -/
def decimalInt (i : Int) : List Char :=
  if i < 0 then '-' :: decimal i.natAbs else decimal i.natAbs

variable {c : Char}

theorem digitValue_of_isDigit (h : c.isDigit) : digitValue c = some (c.toNat - '0'.toNat) := by
  rw [digitValue, if_pos h]

theorem isDigit_toNat (h : c.isDigit) : 48 ≤ c.toNat ∧ c.toNat ≤ 57 := by
  simpa [Char.isDigit, UInt32.le_iff_toNat_le] using h

theorem isDigitOf_ten (h : c.isDigit) : isDigitOf 10 c := by
  have hc := isDigit_toNat h
  rw [isDigitOf, digitValue_of_isDigit h]
  simp only [Option.any_some, decide_eq_true_eq]
  show c.toNat - 48 < 10
  omega

theorem isSpace_of_isDigit (h : c.isDigit) : isSpace c = false := by
  have hc := isDigit_toNat h
  have hblank : c ≠ ' ' := by
    rintro rfl
    revert hc
    decide
  have htab : ¬ c ≤ '\r' := by
    intro hle
    have : c.toNat ≤ '\r'.toNat := hle
    have : '\r'.toNat = 13 := rfl
    omega
  simp [isSpace, hblank, htab]

section

variable {n : Nat}

theorem isDigit_of_mem_decimal {c : Char} (h : c ∈ decimal n) : c.isDigit :=
  Nat.isDigit_of_mem_toDigits (by decide) (by decide) h

theorem decimal_ne_nil (n : Nat) : decimal n ≠ [] := Nat.toDigits_ne_nil

/-- A number that is not zero does not begin with a zero. -/
theorem head_decimal (hn : 0 < n) : (decimal n).head? ≠ some '0' := by
  induction n using Nat.strongRecOn with
  | ind n ih =>
    unfold decimal
    rw [Nat.toDigits_eq_if (by decide)]
    split
    · rename_i hlt
      have hdigit : ∀ d < 10, 0 < d → Nat.digitChar d ≠ '0' := by decide
      simpa using hdigit n hlt hn
    · have hdiv : 0 < n / 10 := by omega
      have hhead := ih (n / 10) (by omega) hdiv
      -- the last digit is added behind a number that is not zero either
      rw [head?_append, Option.or_of_isSome (by simp)]
      exact hhead

theorem valueOf_append_singleton (base : Nat) (digits : List Char) (c : Char) :
    valueOf base (digits ++ [c]) = base * valueOf base digits + (digitValue c).getD 0 := by
  simp [valueOf]

theorem digitValue_digitChar {d : Nat} (h : d < 16) : digitValue (Nat.digitChar d) = some d := by
  revert d
  decide

theorem valueOf_toDigits {base : Nat} (hbase : 1 < base) (hle : base ≤ 16) (n : Nat) :
    valueOf base (Nat.toDigits base n) = n := by
  induction n using Nat.strongRecOn with
  | ind n ih =>
    rw [Nat.toDigits_eq_if hbase]
    split
    · rename_i hlt
      simp [valueOf, digitValue_digitChar (Nat.lt_of_lt_of_le hlt hle)]
    · have hdiv : n / base < n := Nat.div_lt_self (by omega) hbase
      have hmod : n % base < 16 := Nat.lt_of_lt_of_le (Nat.mod_lt n (by omega)) hle
      rw [valueOf_append_singleton, ih _ hdiv, digitValue_digitChar hmod, Option.getD_some]
      exact Nat.div_add_mod n base

theorem valueOf_decimal (n : Nat) : valueOf 10 (decimal n) = n :=
  valueOf_toDigits (by decide) (by decide) n

end

/-! ## Reading digits -/

section

variable {digits : List Char}

section

variable (h : ∀ c ∈ digits, c.isDigit)
include h

/-- No digit belongs to a prefix, so the first one chooses the base. -/
theorem chooseBase_digits :
    chooseBase 0 digits = (if digits.head? = some '0' then 8 else 10, digits) := by
  have hprefix : hasHexPrefix digits = false := by
    unfold hasHexPrefix
    split
    · rename_i x c rest
      have hx : x.isDigit := h x (by simp)
      have hne : ∀ y : Char, y.isDigit = false → x ≠ y := by
        rintro y hy rfl
        rw [hx] at hy
        cases hy
      simp [hne 'x' (by decide), hne 'X' (by decide)]
    · rfl
  rw [chooseBase, hprefix, Bool.and_false, if_neg Bool.false_ne_true, if_pos rfl]

theorem takeSign_digits (negative : Bool) :
    takeSign ((if negative then '-' :: digits else digits).dropWhile isSpace) =
      (negative, digits) := by
  cases negative with
  | true => rfl
  | false =>
    cases digits with
    | nil => rfl
    | cons c cs =>
      have hc : c.isDigit := h c mem_cons_self
      rw [if_neg Bool.false_ne_true, dropWhile_cons, isSpace_of_isDigit hc,
        if_neg Bool.false_ne_true]
      unfold takeSign
      split
      · rename_i heq
        cases (cons.inj heq).1 ▸ hc
      · rename_i heq
        cases (cons.inj heq).1 ▸ hc
      · rfl

/-- Digits are read in base eight if a zero stands first, else in base ten. -/
theorem scanInteger_digits (hne : digits ≠ []) (negative : Bool) {base : Nat}
    (hbase : (if digits.head? = some '0' then 8 else 10) = base) :
    scanInteger 0 (if negative then '-' :: digits else digits) =
      ⟨negative, valueOf base (digits.takeWhile (isDigitOf base)),
        digits.dropWhile (isDigitOf base)⟩ := by
  have hfound : digits.takeWhile (isDigitOf base) ≠ [] := by
    cases digits with
    | nil => exact absurd rfl hne
    | cons c cs =>
      have hc : isDigitOf base c := by
        by_cases hzero : c = '0'
        · rw [← hbase, hzero]
          rfl
        · rw [← hbase, if_neg (by simpa using hzero)]
          exact isDigitOf_ten (h c mem_cons_self)
      simp [hc]
  simp only [scanInteger, takeSign_digits h, chooseBase_digits h, hbase, if_neg hfound]

/-- Without a zero in front the digits are read in base ten. -/
theorem scanInteger_ten (hne : digits ≠ []) (hhead : digits.head? ≠ some '0') (negative : Bool) :
    scanInteger 0 (if negative then '-' :: digits else digits) =
      ⟨negative, valueOf 10 digits, []⟩ := by
  have hall : ∀ c ∈ digits, isDigitOf 10 c := fun c hc => isDigitOf_ten (h c hc)
  rw [scanInteger_digits h hne negative (if_neg hhead), takeWhile_eq_self_iff.mpr hall,
    dropWhile_eq_nil_iff.mpr hall]

end

theorem valueOf_mono {base larger : Nat} (h : base ≤ larger) (digits : List Char) :
    valueOf base digits ≤ valueOf larger digits := by
  induction digits using reverseRecOn with
  | nil => exact Nat.le_refl _
  | append_singleton digits c ih =>
    rw [valueOf_append_singleton, valueOf_append_singleton]
    exact Nat.add_le_add_right (Nat.mul_le_mul h ih) _

/-- Digits stand for the same number in base eight exactly where only the last one counts. -/
theorem octal_iff (h : ∀ c ∈ digits, c.isDigit) :
    (∀ c ∈ digits, isDigitOf 8 c) ∧ valueOf 8 digits = valueOf 10 digits ↔
      valueOf 10 digits < 8 := by
  induction digits using reverseRecOn with
  | nil => simp [valueOf]
  | append_singleton digits c ih =>
    obtain ⟨hinit, hc⟩ := forall_mem_append.mp h
    have hlast : isDigitOf 8 c ↔ (digitValue c).getD 0 < 8 := by
      simp [isDigitOf, digitValue_of_isDigit (hc c mem_cons_self)]
    have hmono : valueOf 8 digits ≤ valueOf 10 digits := valueOf_mono (by decide) digits
    rw [valueOf_append_singleton, valueOf_append_singleton, forall_mem_append,
      forall_mem_singleton, hlast]
    constructor
    · rintro ⟨⟨-, hlt⟩, heq⟩
      omega
    · intro hlt
      -- what stands in front of the last digit is zero
      obtain ⟨hoctal, heq⟩ := (ih hinit).mpr (by omega)
      exact ⟨⟨hoctal, by omega⟩, by omega⟩

end

/-- A printed number is found again, with its sign. -/
theorem scanInteger_signed (n : Nat) (negative : Bool) :
    scanInteger 0 (if negative then '-' :: decimal n else decimal n) = ⟨negative, n, []⟩ := by
  by_cases hn : n = 0
  · subst hn
    cases negative <;> decide
  · rw [scanInteger_ten (fun _ => isDigit_of_mem_decimal) (decimal_ne_nil n)
      (head_decimal (Nat.pos_of_ne_zero hn)), valueOf_decimal]

theorem scanInteger_decimal (n : Nat) : scanInteger 0 (decimal n) = ⟨false, n, []⟩ :=
  scanInteger_signed n false

/-- The integer that was found. -/
def Scanned.toInt (found : Scanned) : Int :=
  if found.negative then -found.magnitude else found.magnitude

theorem scanInteger_decimalInt (i : Int) :
    (scanInteger 0 (decimalInt i)).toInt = i ∧ (scanInteger 0 (decimalInt i)).rest = [] := by
  have hscan := scanInteger_signed i.natAbs (decide (i < 0))
  simp only [decide_eq_true_eq] at hscan
  rw [decimalInt, hscan]
  refine ⟨?_, rfl⟩
  simp only [Scanned.toInt, decide_eq_true_eq]
  split <;> omega

end ZilkerSdk.Lib

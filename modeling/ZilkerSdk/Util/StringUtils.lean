import Mathlib.Algebra.Group.Int.Defs
import ZilkerSdk.Lib.Numeral
import ZilkerSdk.Types.HashMap

/-!
# Conversions from text

Model of the conversions and comparisons in `libs/util/c/src/stringUtils.c`.  A conversion returns
whether it worked and stores its result only then; here it returns the result if there is one.  The
texts are not NULL, except in `stringCompare`.

The C library sets `errno` when a number does not fit its type, and leaves it as it is when there
is no number at all.  The end pointer is then the beginning of the text.
-/

namespace ZilkerSdk.Util

open Lib Types

/-! ## Numbers -/

def stringToUnsignedNumberWithinRange (str : CString) (base minValue maxValue : Nat) :
    Option Nat :=
  if '-' ∈ str then none
  else
    let found := scanInteger base str
    -- `ERANGE`
    if found.magnitude ≥ 2 ^ 64 then none
    else if found.rest ≠ [] ∨ found.magnitude < minValue ∨ found.magnitude > maxValue then none
    else some found.magnitude

def stringToUint8 (str : CString) : Option Nat :=
  stringToUnsignedNumberWithinRange str 0 0 (2 ^ 8 - 1)

def stringToUint16 (str : CString) : Option Nat :=
  stringToUnsignedNumberWithinRange str 0 0 (2 ^ 16 - 1)

def stringToUint32 (str : CString) : Option Nat :=
  stringToUnsignedNumberWithinRange str 0 0 (2 ^ 32 - 1)

def stringToUint64 (str : CString) : Option Nat :=
  stringToUnsignedNumberWithinRange str 0 0 (2 ^ 64 - 1)

def stringToNumberWithinRange (str : CString) (base : Nat) (minValue maxValue : Int) :
    Option Int :=
  let found := scanInteger base str
  -- `ERANGE`
  if found.toInt < -2 ^ 63 ∨ found.toInt ≥ 2 ^ 63 then none
  else if found.rest ≠ [] ∨ found.toInt < minValue ∨ found.toInt > maxValue then none
  else some found.toInt

def stringToInt8 (str : CString) : Option Int :=
  stringToNumberWithinRange str 0 (-2 ^ 7) (2 ^ 7 - 1)

def stringToInt16 (str : CString) : Option Int :=
  stringToNumberWithinRange str 0 (-2 ^ 15) (2 ^ 15 - 1)

def stringToInt32 (str : CString) : Option Int :=
  stringToNumberWithinRange str 0 (-2 ^ 31) (2 ^ 31 - 1)

def stringToInt64 (str : CString) : Option Int :=
  stringToNumberWithinRange str 0 (-2 ^ 63) (2 ^ 63 - 1)

/-- A printed number is read back if it is in range. -/
theorem stringToUnsignedNumberWithinRange_decimal {n maxValue : Nat} (hn : n ≤ maxValue)
    (hmax : maxValue < 2 ^ 64) :
    stringToUnsignedNumberWithinRange (decimal n) 0 0 maxValue = some n := by
  have hsign : '-' ∉ decimal n := by
    intro hmem
    cases isDigit_of_mem_decimal hmem
  have hfits : ¬ (n ≥ 2 ^ 64) := Nat.not_le.mpr (Nat.lt_of_le_of_lt hn hmax)
  have hrange : ¬ (([] : List Char) ≠ [] ∨ n < 0 ∨ n > maxValue) := by
    simp only [ne_eq, not_true_eq_false, false_or]
    omega
  rw [stringToUnsignedNumberWithinRange, if_neg hsign, scanInteger_decimal]
  simp only [if_neg hfits, if_neg hrange]

theorem stringToUint64_decimal {n : Nat} (hn : n < 2 ^ 64) :
    stringToUint64 (decimal n) = some n :=
  stringToUnsignedNumberWithinRange_decimal (Nat.le_sub_one_of_lt hn) (by decide)

theorem stringToUint8_decimal {n : Nat} (hn : n < 2 ^ 8) : stringToUint8 (decimal n) = some n :=
  stringToUnsignedNumberWithinRange_decimal (Nat.le_sub_one_of_lt hn) (by decide)

/-- A printed integer is read back if it is in range. -/
theorem stringToNumberWithinRange_decimalInt {i low high : Int} (hlow : low ≤ i) (hhigh : i ≤ high)
    (hmin : -2 ^ 63 ≤ low) (hmax : high < 2 ^ 63) :
    stringToNumberWithinRange (decimalInt i) 0 low high = some i := by
  obtain ⟨hvalue, hrest⟩ := scanInteger_decimalInt i
  have hfits : ¬ (i < -2 ^ 63 ∨ i ≥ 2 ^ 63) := by omega
  have hrange : ¬ (([] : List Char) ≠ [] ∨ i < low ∨ i > high) := by
    simp only [ne_eq, not_true_eq_false, false_or]
    omega
  simp only [stringToNumberWithinRange, hvalue, hrest, if_neg hfits, if_neg hrange]

theorem stringToInt32_decimalInt {i : Int} (hlow : -2 ^ 31 ≤ i) (hhigh : i < 2 ^ 31) :
    stringToInt32 (decimalInt i) = some i :=
  stringToNumberWithinRange_decimalInt hlow (Int.le_sub_one_of_lt hhigh) (by decide) (by decide)

/-! ## Other texts -/

def trimString (src : CString) : CString :=
  ((src.dropWhile isSpace).reverse.dropWhile isSpace).reverse

/-- `strcasecmp` finds the texts equal. -/
def equalIgnoringCase (left right : CString) : Bool :=
  left.map Char.toLower = right.map Char.toLower

/-- `strcmp`, as the order that its sign stands for. -/
def strcmp (left right : CString) : Ordering :=
  List.compareLex (fun c d => compare c.toNat d.toNat) left right

def strcasecmp (left right : CString) : Ordering :=
  List.compareLex (fun c d => compare c.toLower.toNat d.toLower.toNat) left right

/-- `stringCompare`: a NULL stands behind every text. -/
def stringCompare (left right : Option CString) (ignoreCase : Bool) : Int :=
  match left, right with
  | none, none => 0
  | some left, some right =>
    match if ignoreCase then strcasecmp left right else strcmp left right with
    | .eq => 0
    | .lt => -1
    | .gt => 1
  | none, some _ => 1
  | some _, none => -1

def stringToLowerCase (inputStr : CString) : CString := inputStr.map Char.toLower

theorem strcasecmp_eq_iff (left right : CString) :
    strcasecmp left right = .eq ↔ stringToLowerCase left = stringToLowerCase right := by
  induction left generalizing right with
  | nil => cases right <;> simp [strcasecmp, stringToLowerCase, List.compareLex]
  | cons c left ih =>
    cases right with
    | nil => simp [strcasecmp, stringToLowerCase, List.compareLex]
    | cons d right =>
      have hchar : compare c.toLower.toNat d.toLower.toNat = .eq ↔ c.toLower = d.toLower := by
        rw [Nat.compare_eq_eq, Char.toNat_inj]
      have hrest : strcasecmp left right = .eq ↔
          left.map Char.toLower = right.map Char.toLower := ih right
      show List.compareLex _ (c :: left) (d :: right) = .eq ↔
        c.toLower :: left.map Char.toLower = d.toLower :: right.map Char.toLower
      rw [List.compareLex_cons_cons, Ordering.then_eq_eq, hchar, List.cons.injEq, ← hrest]
      rfl

theorem stringCompare_eq_zero_iff (left right : CString) :
    stringCompare (some left) (some right) true = 0 ↔
      stringToLowerCase left = stringToLowerCase right := by
  rw [← strcasecmp_eq_iff]
  simp only [stringCompare, if_true]
  cases strcasecmp left right <;> decide

def stringToBoolStrict (str : CString) : Option Bool :=
  if equalIgnoringCase str "true".toList || equalIgnoringCase str "yes".toList ||
      str = "1".toList then some true
  else if equalIgnoringCase str "false".toList || equalIgnoringCase str "no".toList ||
      str = "0".toList then some false
  else none

end ZilkerSdk.Util

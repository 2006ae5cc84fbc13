import Mathlib.Order.Compare
import ZilkerSdk.Lib.Numeral

/-!
# Numerals compared as texts

Two numerals with the same number of digits stand in the same order as texts and as numbers.  This
is what makes it safe to compare them character by character, and it needs the same number of
digits.
-/

namespace ZilkerSdk.Lib

open List

/-- Where the first parts have the same length, they are compared first. -/
theorem compareLex_append {α : Type*} (cmp : α → α → Ordering) {x y : List α} (s t : List α)
    (h : x.length = y.length) :
    List.compareLex cmp (x ++ s) (y ++ t) =
      (List.compareLex cmp x y).then (List.compareLex cmp s t) := by
  induction x generalizing y with
  | nil =>
    obtain rfl : y = [] := length_eq_zero_iff.mp h.symm
    rfl
  | cons a x ih =>
    cases y with
    | nil => cases h
    | cons b y =>
      have hlength : x.length = y.length := Nat.succ.inj h
      rw [List.cons_append, List.cons_append, List.compareLex_cons_cons, List.compareLex_cons_cons,
        ih hlength, Ordering.then_assoc]

/-! ## The value of a numeral -/

section

variable {base : Nat}

theorem foldl_valueOf (digits : List Char) (start : Nat) :
    digits.foldl (fun n c => base * n + (digitValue c).getD 0) start =
      start * base ^ digits.length + valueOf base digits := by
  unfold valueOf
  induction digits generalizing start with
  | nil => simp
  | cons c digits ih =>
    rw [foldl_cons, foldl_cons, ih, ih (base * 0 + _), length_cons, Nat.pow_succ,
      Nat.mul_zero, Nat.zero_add, Nat.add_mul, Nat.add_assoc]
    rw [Nat.mul_comm base start, Nat.mul_assoc, Nat.mul_comm base]

/-- The first digit counts most. -/
theorem valueOf_cons (c : Char) (digits : List Char) :
    valueOf base (c :: digits) =
      (digitValue c).getD 0 * base ^ digits.length + valueOf base digits := by
  rw [valueOf, foldl_cons, foldl_valueOf, Nat.mul_zero, Nat.zero_add]

theorem valueOf_append (front back : List Char) :
    valueOf base (front ++ back) = valueOf base front * base ^ back.length + valueOf base back := by
  rw [valueOf, foldl_append, foldl_valueOf]
  rfl

theorem isDigitOf_iff {c : Char} : isDigitOf base c ↔ ∃ d, digitValue c = some d ∧ d < base := by
  simp [isDigitOf, Option.any_eq_true]

theorem digitValue_lt {c : Char} (h : isDigitOf base c) : (digitValue c).getD 0 < base := by
  obtain ⟨d, hd, hlt⟩ := isDigitOf_iff.mp h
  rw [hd]
  exact hlt

theorem valueOf_lt {digits : List Char} (h : ∀ c ∈ digits, isDigitOf base c) :
    valueOf base digits < base ^ digits.length := by
  induction digits with
  | nil => exact Nat.one_pos
  | cons c digits ih =>
    have hrest := ih fun d hd => h d (mem_cons_of_mem c hd)
    have hfirst := Nat.mul_le_mul_right (base ^ digits.length)
      (Nat.succ_le_of_lt (digitValue_lt (h c mem_cons_self)))
    rw [valueOf_cons, length_cons, Nat.pow_succ, Nat.mul_comm _ base]
    rw [Nat.succ_mul] at hfirst
    omega

end

/-! ## The order of numerals -/

theorem compare_congr {a b c d : Nat} (hlt : a < b ↔ c < d) (hgt : b < a ↔ d < c) :
    compare a b = compare c d := by
  simp only [Nat.compare_eq_ite_lt, hlt, hgt]

/-- Numbers are compared by their leading part first. -/
theorem compare_mul_add {a b r s unit : Nat} (hr : r < unit) (hs : s < unit) :
    compare (a * unit + r) (b * unit + s) = (compare a b).then (compare r s) := by
  obtain hlt | rfl | hgt := Nat.lt_trichotomy a b
  · have hle := Nat.mul_le_mul_right unit (Nat.succ_le_of_lt hlt)
    rw [Nat.succ_mul] at hle
    rw [Nat.compare_eq_lt.mpr hlt, Nat.compare_eq_lt.mpr (by omega)]
    rfl
  · rw [Nat.compare_eq_eq.mpr rfl, Ordering.eq_then]
    exact compare_congr (by omega) (by omega)
  · have hle := Nat.mul_le_mul_right unit (Nat.succ_le_of_lt hgt)
    rw [Nat.succ_mul] at hle
    rw [Nat.compare_eq_gt.mpr hgt, Nat.compare_eq_gt.mpr (by omega)]
    rfl

/-- Numerals of the same length are ordered by their characters as they are by their values, if the
characters are ordered as the digits are. -/
theorem compareLex_eq_compare_valueOf {base : Nat} {cmp : Char → Char → Ordering}
    (hcmp : ∀ c d, isDigitOf base c → isDigitOf base d →
      cmp c d = compare ((digitValue c).getD 0) ((digitValue d).getD 0))
    {x y : List Char} (h : x.length = y.length) (hx : ∀ c ∈ x, isDigitOf base c)
    (hy : ∀ c ∈ y, isDigitOf base c) :
    List.compareLex cmp x y = compare (valueOf base x) (valueOf base y) := by
  induction x generalizing y with
  | nil =>
    obtain rfl : y = [] := length_eq_zero_iff.mp h.symm
    rfl
  | cons c x ih =>
    cases y with
    | nil => cases h
    | cons d y =>
      have hlength : x.length = y.length := Nat.succ.inj h
      have hx' : ∀ c ∈ x, isDigitOf base c := fun e he => hx e (mem_cons_of_mem c he)
      have hy' : ∀ c ∈ y, isDigitOf base c := fun e he => hy e (mem_cons_of_mem d he)
      have hboundx := valueOf_lt hx'
      have hboundy := valueOf_lt hy'
      rw [← hlength] at hboundy
      rw [List.compareLex_cons_cons, ih hlength hx' hy',
        hcmp c d (hx c mem_cons_self) (hy d mem_cons_self), valueOf_cons, valueOf_cons,
        ← hlength, compare_mul_add hboundx hboundy]

/-! ## Digits without regard to case -/

theorem toLower_toNat (c : Char) :
    c.toLower.toNat = if 65 ≤ c.toNat ∧ c.toNat ≤ 90 then c.toNat + 32 else c.toNat := by
  have hbounds : c.val ≥ 'A'.val ∧ c.val ≤ 'Z'.val ↔ 65 ≤ c.toNat ∧ c.toNat ≤ 90 :=
    and_congr UInt32.le_iff_toNat_le UInt32.le_iff_toNat_le
  by_cases h : c.val ≥ 'A'.val ∧ c.val ≤ 'Z'.val
  · have hlower : c.toLower = ⟨c.val + 32, _⟩ := dif_pos h
    rw [if_pos (hbounds.mp h), hlower]
    show (c.val + 32).toNat = c.val.toNat + 32
    have hle : c.val.toNat ≤ 90 := (hbounds.mp h).2
    rw [UInt32.toNat_add]
    exact Nat.mod_eq_of_lt (by have : (32 : UInt32).toNat = 32 := rfl; omega)
  · have hsame : c.toLower = c := dif_neg h
    rw [if_neg (mt hbounds.mpr h), hsame]

/-- The lower case form of a digit. -/
theorem toLower_toNat_of_isDigitOf {c : Char} (h : isDigitOf 16 c) :
    c.toLower.toNat =
      (digitValue c).getD 0 + if (digitValue c).getD 0 < 10 then 48 else 87 := by
  have hbound := digitValue_lt h
  -- the three kinds of digits are intervals of character codes
  have hdigit : c.isDigit ↔ 48 ≤ c.toNat ∧ c.toNat ≤ 57 := by
    simp [Char.isDigit, UInt32.le_iff_toNat_le]
  have hlower : c.isLower ↔ 97 ≤ c.toNat ∧ c.toNat ≤ 122 := by
    show (decide (c.val ≥ 'a'.val) && decide (c.val ≤ 'z'.val)) = true ↔ _
    rw [Bool.and_eq_true, decide_eq_true_eq, decide_eq_true_eq]
    exact and_congr UInt32.le_iff_toNat_le UInt32.le_iff_toNat_le
  have hupper : c.isUpper ↔ 65 ≤ c.toNat ∧ c.toNat ≤ 90 := by
    show decide (c.val ≥ 'A'.val ∧ c.val ≤ 'Z'.val) = true ↔ _
    rw [decide_eq_true_eq]
    exact and_congr UInt32.le_iff_toNat_le UInt32.le_iff_toNat_le
  rw [toLower_toNat]
  have hzero : '0'.toNat = 48 := rfl
  have ha : 'a'.toNat = 97 := rfl
  have hA : 'A'.toNat = 65 := rfl
  revert h hbound
  unfold isDigitOf
  fun_cases digitValue c <;> intro h hbound
  case case4 => cases h
  all_goals
    rw [Option.getD_some] at hbound ⊢
    simp only [hdigit, hlower, hupper] at *
    split <;> split <;> omega

theorem isDigitOf_mono {base larger : Nat} (h : base ≤ larger) {c : Char} (hc : isDigitOf base c) :
    isDigitOf larger c := by
  obtain ⟨d, hd, hlt⟩ := isDigitOf_iff.mp hc
  exact isDigitOf_iff.mpr ⟨d, hd, hlt.trans_le h⟩

theorem compare_toLower {c d : Char} (hc : isDigitOf 16 c) (hd : isDigitOf 16 d) :
    compare c.toLower.toNat d.toLower.toNat =
      compare ((digitValue c).getD 0) ((digitValue d).getD 0) := by
  rw [toLower_toNat_of_isDigitOf hc, toLower_toNat_of_isDigitOf hd]
  generalize (digitValue c).getD 0 = m
  generalize (digitValue d).getD 0 = n
  apply compare_congr
  all_goals split <;> split <;> omega

end ZilkerSdk.Lib

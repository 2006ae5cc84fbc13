import Mathlib.Data.List.Basic

/-!
# Base64

The standard encoding of bytes as text: three bytes are four characters of an alphabet of 64, and
what is left at the end is filled up with `=`.
-/

namespace ZilkerSdk.Lib.Base64

/-! ## The alphabet -/

/-- The character for a number below 64. -/
def digit (n : Nat) : Char :=
  if n < 26 then Char.ofNat (65 + n)
  else if n < 52 then Char.ofNat (71 + n)
  else if n < 62 then Char.ofNat (n - 4)
  else if n = 62 then '+'
  else '/'

/-- The number that a character stands for. -/
def value (c : Char) : Option Nat :=
  if 'A' ≤ c ∧ c ≤ 'Z' then some (c.toNat - 65)
  else if 'a' ≤ c ∧ c ≤ 'z' then some (c.toNat - 71)
  else if '0' ≤ c ∧ c ≤ '9' then some (c.toNat + 4)
  else if c = '+' then some 62
  else if c = '/' then some 63
  else none

variable {n : Nat} {bytes : List UInt8}

theorem value_digit (h : n < 64) : value (digit n) = some n := by
  have hall : ∀ n : Fin 64, value (digit n) = some n.val := by decide
  exact hall ⟨n, h⟩

/-- The characters of an encoded text. -/
def Symbol (c : Char) : Prop := (value c).isSome ∨ c = '='

instance (c : Char) : Decidable (Symbol c) := inferInstanceAs (Decidable (_ ∨ _))

theorem symbol_digit (h : n < 64) : Symbol (digit n) := by
  left
  rw [value_digit h]
  rfl

/-! ## Encoding -/

def encode : List UInt8 → List Char
  | [] => []
  | [a] => [digit (a.toNat / 4), digit (a.toNat % 4 * 16), '=', '=']
  | [a, b] =>
    [digit (a.toNat / 4), digit (a.toNat % 4 * 16 + b.toNat / 16), digit (b.toNat % 16 * 4), '=']
  | a :: b :: c :: bytes =>
    digit (a.toNat / 4) :: digit (a.toNat % 4 * 16 + b.toNat / 16) ::
      digit (b.toNat % 16 * 4 + c.toNat / 64) :: digit (c.toNat % 64) :: encode bytes

theorem length_encode (bytes : List UInt8) :
    (encode bytes).length = 4 * ((bytes.length + 2) / 3) := by
  induction bytes using encode.induct with
  | case1 => rfl
  | case2 | case3 => simp [encode]
  | case4 a b c bytes ih =>
    simp only [encode, List.length_cons, ih]
    omega

theorem encode_ne_nil (h : bytes ≠ []) : encode bytes ≠ [] := by
  have hlength := length_encode bytes
  have hpos := List.length_pos_of_ne_nil h
  apply List.ne_nil_of_length_pos
  omega

theorem symbol_of_mem_encode {c : Char} (h : c ∈ encode bytes) : Symbol c := by
  induction bytes using encode.induct with
  | case1 => cases h
  | case2 a =>
    have ha := a.toNat_lt
    simp only [encode, List.mem_cons, List.not_mem_nil, or_false] at h
    obtain rfl | rfl | rfl | rfl := h
    · exact symbol_digit (by omega)
    · exact symbol_digit (by omega)
    · exact .inr rfl
    · exact .inr rfl
  | case3 a b =>
    have ha := a.toNat_lt
    have hb := b.toNat_lt
    simp only [encode, List.mem_cons, List.not_mem_nil, or_false] at h
    obtain rfl | rfl | rfl | rfl := h
    · exact symbol_digit (by omega)
    · exact symbol_digit (by omega)
    · exact symbol_digit (by omega)
    · exact .inr rfl
  | case4 a b c' bytes ih =>
    have ha := a.toNat_lt
    have hb := b.toNat_lt
    have hc := c'.toNat_lt
    simp only [encode, List.mem_cons] at h
    obtain rfl | rfl | rfl | rfl | h := h
    · exact symbol_digit (by omega)
    · exact symbol_digit (by omega)
    · exact symbol_digit (by omega)
    · exact symbol_digit (by omega)
    · exact ih h

/-! ## Decoding -/

/-- Texts that end in the middle, or have other characters, are refused. -/
def decode : List Char → Option (List UInt8)
  | [] => some []
  | w :: x :: y :: z :: text =>
    match value w, value x, value y, value z with
    | some w, some x, some y, some z =>
      (decode text).map fun bytes =>
        UInt8.ofNat (w * 4 + x / 16) :: UInt8.ofNat (x % 16 * 16 + y / 4) ::
          UInt8.ofNat (y % 4 * 64 + z) :: bytes
    | some w, some x, some y, none =>
      if z = '=' ∧ text = [] then
        some [UInt8.ofNat (w * 4 + x / 16), UInt8.ofNat (x % 16 * 16 + y / 4)]
      else none
    | some w, some x, none, _ =>
      if y = '=' ∧ z = '=' ∧ text = [] then some [UInt8.ofNat (w * 4 + x / 16)] else none
    | _, _, _, _ => none
  | _ => none

theorem ofNat_eq {a : UInt8} (h : n = a.toNat) : UInt8.ofNat n = a := by
  rw [h, UInt8.ofNat_toNat]

theorem decode_encode (bytes : List UInt8) : decode (encode bytes) = some bytes := by
  have hfill : value '=' = none := by decide
  induction bytes using encode.induct with
  | case1 => rfl
  -- one byte is left: two characters and two fills
  | case2 a =>
    have ha := a.toNat_lt
    have h₁ : UInt8.ofNat (a.toNat / 4 * 4 + a.toNat % 4 * 16 / 16) = a := ofNat_eq (by omega)
    have hw : a.toNat / 4 < 64 := by omega
    have hx : a.toNat % 4 * 16 < 64 := by omega
    simp only [encode, decode, value_digit hw, value_digit hx, hfill, h₁, and_self, if_true]
  -- two bytes are left: three characters and one fill
  | case3 a b =>
    have ha := a.toNat_lt
    have hb := b.toNat_lt
    have h₁ : UInt8.ofNat (a.toNat / 4 * 4 + (a.toNat % 4 * 16 + b.toNat / 16) / 16) = a :=
      ofNat_eq (by omega)
    have h₂ :
        UInt8.ofNat ((a.toNat % 4 * 16 + b.toNat / 16) % 16 * 16 + b.toNat % 16 * 4 / 4) = b :=
      ofNat_eq (by omega)
    have hw : a.toNat / 4 < 64 := by omega
    have hx : a.toNat % 4 * 16 + b.toNat / 16 < 64 := by omega
    have hy : b.toNat % 16 * 4 < 64 := by omega
    simp only [encode, decode, value_digit hw, value_digit hx, value_digit hy, hfill, h₁, h₂,
      and_self, if_true]
  -- three bytes give four characters
  | case4 a b c bytes ih =>
    have ha := a.toNat_lt
    have hb := b.toNat_lt
    have hc := c.toNat_lt
    have h₁ : UInt8.ofNat (a.toNat / 4 * 4 + (a.toNat % 4 * 16 + b.toNat / 16) / 16) = a :=
      ofNat_eq (by omega)
    have h₂ : UInt8.ofNat ((a.toNat % 4 * 16 + b.toNat / 16) % 16 * 16 +
        (b.toNat % 16 * 4 + c.toNat / 64) / 4) = b := ofNat_eq (by omega)
    have h₃ : UInt8.ofNat ((b.toNat % 16 * 4 + c.toNat / 64) % 4 * 64 + c.toNat % 64) = c :=
      ofNat_eq (by omega)
    have hw : a.toNat / 4 < 64 := by omega
    have hx : a.toNat % 4 * 16 + b.toNat / 16 < 64 := by omega
    have hy : b.toNat % 16 * 4 + c.toNat / 64 < 64 := by omega
    have hz : c.toNat % 64 < 64 := by omega
    simp only [encode, decode, value_digit hw, value_digit hx, value_digit hy, value_digit hz, ih,
      h₁, h₂, h₃, Option.map_some]

end ZilkerSdk.Lib.Base64

import Mathlib.Algebra.Group.Int.Defs
import ZilkerSdk.Lib.Json
import ZilkerSdk.Types.HashMap

/-!
# JSON helpers

The functions of `libs/json/c/src/jsonHelper.c` over JSON trees, and the numbers of
cJSON: a JSON number is a `double`, kept here as the rational it stands for, and
`valueint` is its integral part held inside the range of `int`.
-/

namespace ZilkerSdk.Types

open Lib

/-! ## Numbers -/

/-- The double nearest to a natural number: 53 significant bits, ties to even. -/
def doubleOfNat (n : Nat) : Rat :=
  if n < 2 ^ 53 then n
  else
    let ulp := 2 ^ (Nat.log2 n - 52)
    let below := n / ulp
    -- half way between two doubles the even one is taken
    let roundsUp := ulp < 2 * (n % ulp) ∨ (ulp = 2 * (n % ulp) ∧ below % 2 = 1)
    ((if roundsUp then below + 1 else below) * ulp : Nat)

/-- The integral part of a double. -/
def truncate (d : Rat) : Int := d.num.tdiv d.den

/-- `valueint` of a cJSON number. -/
def intOfDouble (d : Rat) : Int := max (-2 ^ 31) (min (2 ^ 31 - 1) (truncate d))

/-- The conversion of a non-negative double to `uint64_t`. -/
def truncToNat (d : Rat) : Nat := (truncate d).toNat

variable {n : Nat} {key : CString}

/-- Natural numbers below 2^53 are doubles. -/
theorem doubleOfNat_eq (h : n < 2 ^ 53) : doubleOfNat n = n := if_pos h

theorem truncate_natCast (n : Nat) : truncate (n : Rat) = n := by
  simp [truncate]

/-- Natural numbers are read back from doubles. -/
theorem truncToNat_natCast (n : Nat) : truncToNat (n : Rat) = n := by
  rw [truncToNat, truncate_natCast, Int.toNat_natCast]

theorem uint8_ofInt_toNat (n : UInt8) : UInt8.ofInt (n.toNat : Int) = n := by
  have hmod : ((n.toNat : Int) % 2 ^ 8).toNat = n.toNat := by
    have := n.toNat_lt
    omega
  rw [UInt8.ofInt, hmod, UInt8.ofNat_toNat]

/-! ## Reading members -/

/-- The string under a key, or `none` for the NULL of a missing or other member. -/
def getCJSONString (json : Json) (key : CString) : Option CString :=
  match json.getObjectItem key with
  | some (.string s) => some s
  | _ => none

/-- The integer under a key, or the value the caller had put there before. -/
def getCJSONInt (json : Json) (key : CString) (value : Int) : Int :=
  match json.getObjectItem key with
  | some (.number d) => intOfDouble d
  | _ => value

def getCJSONDouble (json : Json) (key : CString) (value : Rat) : Rat :=
  match json.getObjectItem key with
  | some (.number d) => d
  | _ => value

def getCJSONBool (json : Json) (key : CString) (value : Bool) : Bool :=
  match json.getObjectItem key with
  | some (.bool b) => b
  | _ => value

theorem getCJSONString_eq {json : Json} {s : Option CString}
    (h : json.getObjectItem key = s.map .string) : getCJSONString json key = s := by
  rw [getCJSONString, h]
  cases s <;> rfl

theorem getCJSONInt_eq {json : Json} {value : Int} (h : json.getObjectItem key = some (.number n))
    (hn : n < 2 ^ 31) : getCJSONInt json key value = n := by
  simp only [getCJSONInt, h, intOfDouble, truncate_natCast]
  omega

end ZilkerSdk.Types

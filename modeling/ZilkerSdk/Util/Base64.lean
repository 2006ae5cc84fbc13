import ZilkerSdk.Lib.Base64
import ZilkerSdk.Types.HashMap

/-!
# Base64 strings

Model of `libs/util/c/src/base64.c`.  The functions of mbedtls are parameters (`MbedtlsBase64`): it
is assumed that encoding gives the standard text where there is room for it, and that decoding such
a text gives the bytes.

The length of an array is passed as a `uint16_t`, so callers that have more bytes pass less.
-/

namespace ZilkerSdk.Util

open Lib Types

/-- `mbedtls_base64_encode`, which gets the length of the buffer, and `mbedtls_base64_decode` -/
structure MbedtlsBase64 where
  encode : (dlen : Nat) → (src : List UInt8) → Option CString
  decode : (src : CString) → Option (List UInt8)
  encode_eq : ∀ dlen src, (Base64.encode src).length < dlen →
    encode dlen src = some (Base64.encode src)
  decode_encode : ∀ bytes, decode (Base64.encode bytes) = some bytes

/-- Functions that write and accept standard texts only. -/
def MbedtlsBase64.strict : MbedtlsBase64 where
  encode dlen src := if (Base64.encode src).length < dlen then some (Base64.encode src) else none
  decode := Base64.decode
  encode_eq _ _ h := if_pos h
  decode_encode := Base64.decode_encode

variable (base64 : MbedtlsBase64)

def icEncodeBase64 (array : List UInt8) (arrayLen : Nat) : Option CString :=
  if arrayLen = 0 then none
  else base64.encode ((arrayLen * 4 / 3 + 3) / 4 * 4 + 1) (array.take arrayLen)

/-- `icDecodeBase64`: the buffer, which may be longer than what was decoded, and the length as a
`uint16_t`. -/
def icDecodeBase64 (srcStr : CString) : Option (List UInt8 × Nat) :=
  match base64.decode srcStr with
  | none => none
  | some bytes =>
    if bytes.length ≤ srcStr.length * 3 / 4 then
      some (bytes ++ List.replicate (srcStr.length * 3 / 4 - bytes.length) 0, bytes.length % 2 ^ 16)
    else none

/-- There is always room for the text. -/
theorem icEncodeBase64_eq (array : List UInt8) {arrayLen : Nat} (h : arrayLen ≠ 0) :
    icEncodeBase64 base64 array arrayLen = some (Base64.encode (array.take arrayLen)) := by
  have hlength : (array.take arrayLen).length ≤ arrayLen := by
    rw [List.length_take]
    exact Nat.min_le_left _ _
  rw [icEncodeBase64, if_neg h, base64.encode_eq]
  rw [Base64.length_encode]
  omega

/-- There is always room for the bytes. -/
theorem icDecodeBase64_encode {bytes : List UInt8}
    (h : bytes.length < 2 ^ 16) :
    ∃ buffer, icDecodeBase64 base64 (Base64.encode bytes) = some (buffer, bytes.length) ∧
      buffer.take bytes.length = bytes ∧ bytes.length ≤ buffer.length := by
  have hroom : bytes.length ≤ (Base64.encode bytes).length * 3 / 4 := by
    rw [Base64.length_encode]
    omega
  simp only [icDecodeBase64, base64.decode_encode, if_pos hroom, Nat.mod_eq_of_lt h]
  refine ⟨_, rfl, ?_, ?_⟩
  · exact List.take_left
  · rw [List.length_append]
    exact Nat.le_add_right _ _

/-- An array that was encoded is decoded to the same bytes and the same length. -/
theorem base64_roundTrip {array : List UInt8} (hpos : 1 ≤ array.length)
    (hmax : array.length ≤ 65535) :
    ∃ text buffer, icEncodeBase64 base64 array array.length = some text ∧
      icDecodeBase64 base64 text = some (buffer, array.length) ∧
      buffer.take array.length = array := by
  have hencode := icEncodeBase64_eq base64 array (Nat.ne_of_gt hpos)
  rw [List.take_length] at hencode
  obtain ⟨buffer, hdecode, htake, -⟩ := icDecodeBase64_encode base64 (Nat.lt_succ_of_le hmax)
  exact ⟨_, buffer, hencode, hdecode, htake⟩

theorem base64_roundTrip_twoBytes :
    ∃ text buffer, icEncodeBase64 .strict [77, 97] 2 = some text ∧
      icDecodeBase64 .strict text = some (buffer, 2) ∧ buffer.take 2 = [77, 97] := by
  have hpos : 1 ≤ ([77, 97] : List UInt8).length := by decide
  have hmax : ([77, 97] : List UInt8).length ≤ 65535 := by decide
  exact base64_roundTrip .strict hpos hmax

end ZilkerSdk.Util

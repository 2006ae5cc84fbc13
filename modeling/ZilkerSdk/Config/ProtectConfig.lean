import Mathlib.Data.List.DropRight
import ZilkerSdk.Lib.Numeral
import ZilkerSdk.Lib.Octets
import ZilkerSdk.Util.Base64

/-!
# Encrypted values

Model of `libs/config/c/src/protectConfig.c`: `protectConfigData` encrypts bytes with AES in CBC
mode and puts version, initialization vector and cipher text into one string, and
`unprotectConfigData` takes the string apart again.  An older format has the cipher text only; a
string that cannot be taken apart is taken for one of these, and unless a version was asked for
this also decides how later values are written.

The functions of mbedtls are parameters (`Mbedtls`).  Both functions return `none`
where a buffer is read or written past its end, and `some none` where the code returns `NULL`.
-/

namespace ZilkerSdk.Config

open Lib Types Util List Base64

/-! ## Sessions and versions -/

def protectIdUndefined : Nat := 0

def protectAesCbcNoIv : Nat := 1

/-- `PROTECT_AES_CBC`, which is also `PROTECT_ID_LATEST` -/
def protectAesCbc : Nat := 2

/-- The variables of the module. -/
structure ProtectState where
  counter : Nat
  useVer : Nat
  verWasSet : Bool
  useVer_le : useVer ≤ protectAesCbc

def ProtectState.initial : ProtectState := ⟨0, protectAesCbc, false, Nat.le_refl _⟩

/-- `openProtectConfigSession`, where the random source can be seeded. -/
def openProtectConfigSession (st : ProtectState) : ProtectState :=
  { st with counter := st.counter + 1 }

def forceProtectVersion (toVersion : Nat) (downgrade : Bool) (st : ProtectState) :
    ProtectState × Bool :=
  if h : toVersion ≤ protectAesCbc then
    if toVersion < st.useVer ∧ downgrade = false then (st, false)
    else ({ st with useVer := toVersion, verWasSet := true, useVer_le := h }, true)
  else (st, false)

/-! ## Encryption -/

/-- The functions of mbedtls: those for base64, and `mbedtls_aes_crypt_cbc` with a key and an
initialization vector. -/
structure Mbedtls where
  base64 : MbedtlsBase64
  encryptCbc : (key iv input : List UInt8) → List UInt8
  decryptCbc : (key iv input : List UInt8) → List UInt8
  length_encryptCbc : ∀ key iv input, (encryptCbc key iv input).length = input.length
  decrypt_encrypt : ∀ key iv input, key.length = 32 → iv.length = 16 → input.length % 16 = 0 →
    decryptCbc key iv (encryptCbc key iv input) = input

/-- The length rounded up to whole blocks, in 32 bits. -/
def blockLength (length : Nat) : Nat := (length + 15) % 2 ^ 32 / 16 * 16

/-- The vector of the older format. -/
def zeroIv : List UInt8 := List.replicate 16 0

/-- The string for a cipher text.  Its length is passed to `icEncodeBase64` as a `uint16_t`. -/
def frame (base64 : MbedtlsBase64) (version : Nat) (iv cipher : List UInt8) : Option CString :=
  match icEncodeBase64 base64 cipher (cipher.length % 2 ^ 16), icEncodeBase64 base64 iv 16 with
  | some encoded, some ivEncoded =>
    if protectAesCbcNoIv < version then
      some ('$' :: decimal version ++ '$' :: ivEncoded ++ '$' :: encoded)
    else some encoded
  | _, _ => none

/-- `protectConfigData`; `random` is what `mbedtls_ctr_drbg_random` gives. -/
def protectConfigData (mbedtls : Mbedtls) (st : ProtectState) (random : Option (List UInt8))
    (dataToProtect password : Option (List UInt8)) : Option (Option CString) :=
  match dataToProtect, password with
  | some data, some key =>
    if st.counter = 0 then some none
    else
      match if protectAesCbcNoIv < st.useVer then random else some zeroIv with
      | none => some none
      | some iv =>
        if key.length ≠ 32 then some none
        -- the data is copied into a buffer of the rounded length
        else if blockLength data.length < data.length then none
        else
          some (frame mbedtls.base64 st.useVer iv
            (mbedtls.encryptCbc key iv (pad (blockLength data.length) data)))
  | _, _ => some none

/-! ## Decryption -/

structure EncParts where
  version : Nat
  iv : CString
  data : CString

/-- The number at the beginning of a token, by `strtoul`, if it fits into eight bits. -/
def versionOf (token : CString) : Option Nat :=
  match scanInteger 10 token with
  | ⟨negative, magnitude, _⟩ =>
    if 2 ^ 64 ≤ magnitude then none
    else if negative then
      if (2 ^ 64 - magnitude) % 2 ^ 64 ≤ 255 then some ((2 ^ 64 - magnitude) % 2 ^ 64) else none
    else if magnitude ≤ 255 then some magnitude
    else none

/-- The loop of `extractParts`: `i` parts have been found. -/
def extractFrom : Nat → EncParts → List CString → Bool × EncParts
  | i, parts, [] => (i == 3, parts)
  | 0, parts, token :: tokens =>
    match versionOf token with
    | some version => extractFrom 1 { parts with version := version } tokens
    | none => (false, parts)
  | 1, parts, token :: tokens => extractFrom 2 { parts with iv := token } tokens
  | 2, parts, token :: tokens => extractFrom 3 { parts with data := token } tokens
  | _, parts, _ :: _ => (false, parts)

/-- `extractParts`.  `strtok_r` gives no empty token. -/
def extractParts (msg : CString) : Bool × EncParts :=
  extractFrom 0 ⟨protectIdUndefined, [], []⟩ ((msg.splitOn '$').filter (· ≠ []))

/-- What `strtok_r` leaves of the string: it ends after the first token. -/
def afterStrtok (msg : CString) : CString :=
  msg.takeWhile (· = '$') ++ (msg.dropWhile (· = '$')).takeWhile (· ≠ '$')

/-- What is to be decrypted. -/
structure Message where
  iv : List UInt8
  data : CString
  version : Nat

/-- The first part of `unprotectConfigData`, until the message is known. -/
def readMessage (mbedtls : Mbedtls) (st : ProtectState) (text : CString) :
    Option Message × ProtectState :=
  match extractParts text with
  | (true, parts) =>
    match icDecodeBase64 mbedtls.base64 parts.iv with
    | some (decoded, 16) => (some ⟨decoded.take 16, parts.data, parts.version⟩, st)
    | _ => (none, st)
  | (false, parts) =>
    if st.verWasSet then (some ⟨zeroIv, afterStrtok text, parts.version⟩, st)
    else
      (some ⟨zeroIv, afterStrtok text, protectAesCbcNoIv⟩,
        { st with useVer := protectAesCbcNoIv, useVer_le := by decide })

/-- `pcData`, as `unprotectConfigData` returns it. -/
structure PcData where
  data : List UInt8
  version : Nat

/-- The second part of `unprotectConfigData`.  The zeros at the end are not counted. -/
def decryptMessage (mbedtls : Mbedtls) (message : Message) (key : List UInt8) :
    Option (Option PcData) :=
  match icDecodeBase64 mbedtls.base64 message.data with
  | none => some none
  | some (decoded, decodedLen) =>
    if key.length ≠ 32 then some none
    -- whole blocks are read from the buffer
    else if decoded.length < blockLength decodedLen then none
    else
      some (some ⟨(mbedtls.decryptCbc key message.iv
        (decoded.take (blockLength decodedLen))).rdropWhile (· = 0), message.version⟩)

/-- `unprotectConfigData`, of a string that ends where its length says. -/
def unprotectConfigData (mbedtls : Mbedtls) (st : ProtectState) (protectedData : Option CString)
    (password : Option (List UInt8)) : Option (Option PcData) × ProtectState :=
  match protectedData, password with
  | some text, some key =>
    if st.counter = 0 then (some none, st)
    else
      match readMessage mbedtls st text with
      | (some message, st') => (decryptMessage mbedtls message key, st')
      | (none, st') => (some none, st')
  | _, _ => (some none, st)

/-! ## The strings that are written -/

theorem dollar_notMem_encode (bytes : List UInt8) : '$' ∉ encode bytes := by
  intro h
  have hno : ¬ Base64.Symbol '$' := by decide
  exact hno (symbol_of_mem_encode h)

variable {cipher : List UInt8} {version : Nat}

/-- The parts of a string with version and vector. -/
theorem extractParts_frame {iv : List UInt8} (hiv : iv ≠ []) (hcipher : cipher ≠ []) :
    extractParts ('$' :: decimal protectAesCbc ++ '$' :: encode iv ++
        '$' :: encode cipher) =
      (true, ⟨protectAesCbc, encode iv, encode cipher⟩) := by
  have htext : '$' :: decimal protectAesCbc ++ '$' :: encode iv ++
      '$' :: encode cipher =
      ['$'].intercalate [[], decimal protectAesCbc, encode iv, encode cipher] := by
    simp [intercalate]
  have hno : ∀ part ∈ [[], decimal protectAesCbc, encode iv, encode cipher],
      '$' ∉ part := by
    intro part hpart
    simp only [mem_cons, not_mem_nil, or_false] at hpart
    obtain rfl | rfl | rfl | rfl := hpart
    · exact not_mem_nil
    · decide
    · exact dollar_notMem_encode iv
    · exact dollar_notMem_encode cipher
  have hversion : versionOf (decimal protectAesCbc) = some protectAesCbc := by decide
  have hdecimal : decimal protectAesCbc ≠ [] := decimal_ne_nil _
  rw [extractParts, htext, splitOn_intercalate _ hno (cons_ne_nil _ _)]
  simp [extractFrom, hdecimal, encode_ne_nil hiv, encode_ne_nil hcipher, hversion]

/-- A string without separators cannot be taken apart, but it is read as a number. -/
theorem extractParts_legacy (hcipher : cipher ≠ []) :
    ∃ parts, extractParts (encode cipher) = (false, parts) ∧
      parts.version = (versionOf (encode cipher)).getD protectIdUndefined := by
  rw [extractParts, splitOn_eq_singleton (dollar_notMem_encode cipher),
    filter_cons_of_pos (by simpa using encode_ne_nil hcipher), filter_nil]
  cases hversion : versionOf (encode cipher) with
  | none =>
    refine ⟨⟨protectIdUndefined, [], []⟩, ?_, rfl⟩
    simp only [extractFrom, hversion]
  | some version =>
    refine ⟨⟨version, [], []⟩, ?_, rfl⟩
    simp only [extractFrom, hversion]
    rfl

theorem afterStrtok_encode (bytes : List UInt8) :
    afterStrtok (encode bytes) = encode bytes := by
  have hno : ∀ c ∈ encode bytes, c ≠ '$' := by
    rintro c hc rfl
    exact dollar_notMem_encode bytes hc
  have htake : (encode bytes).takeWhile (· = '$') = [] := by
    rw [takeWhile_eq_nil_iff]
    intro hpos
    simpa using hno _ (getElem_mem hpos)
  have hdrop : (encode bytes).dropWhile (· = '$') = encode bytes := by
    have happend := takeWhile_append_dropWhile (p := (· = '$')) (l := encode bytes)
    rwa [htake, nil_append] at happend
  rw [afterStrtok, htake, hdrop, nil_append, takeWhile_eq_self_iff]
  intro c hc
  simpa using hno c hc

/-! ## Blocks -/

theorem rdropWhile_pad {width : Nat} {s : List UInt8} (hs : ∀ b ∈ s, b ≠ 0) :
    (pad width s).rdropWhile (· = 0) = s := by
  unfold pad
  induction width - s.length with
  | zero =>
    rw [replicate_zero, append_nil, rdropWhile_eq_self_iff]
    intro hne
    simpa using hs _ (getLast_mem hne)
  | succ n ih =>
    rw [replicate_succ', ← append_assoc, rdropWhile_concat_pos _ _ _ (by simp)]
    exact ih

/-! ## Round trips -/

variable (mbedtls : Mbedtls) {st st' : ProtectState} {s key iv : List UInt8}

/-- What is encrypted for a value. -/
def cipherOf (iv s key : List UInt8) : List UInt8 :=
  mbedtls.encryptCbc key iv (pad (blockLength s.length) s)

def ProtectState.writtenVersion (st : ProtectState) : Nat :=
  if protectAesCbcNoIv < st.useVer then st.useVer else protectAesCbcNoIv

theorem blockLength_eq (hlength : s.length ≤ 65535) :
    blockLength s.length = (s.length + 15) / 16 * 16 := by
  unfold blockLength
  rw [Nat.mod_eq_of_lt (by omega)]

theorem length_cipherOf (hlength : s.length ≤ 65535) :
    (cipherOf mbedtls iv s key).length = (s.length + 15) / 16 * 16 := by
  rw [cipherOf, mbedtls.length_encryptCbc, length_pad]
  · exact blockLength_eq hlength
  · rw [blockLength_eq hlength]
    omega

theorem protectConfigData_eq (hopen : 0 < st.counter) (hkey : key.length = 32)
    (hlength : s.length ≤ 65535) :
    protectConfigData mbedtls st (some iv) (some s) (some key) =
      if protectAesCbcNoIv < st.useVer then
        some (frame mbedtls.base64 st.useVer iv (cipherOf mbedtls iv s key))
      else some (frame mbedtls.base64 st.useVer zeroIv (cipherOf mbedtls zeroIv s key)) := by
  have hcounter : st.counter ≠ 0 := by omega
  have hroom : ¬ blockLength s.length < s.length := by
    rw [blockLength_eq hlength]
    omega
  unfold protectConfigData
  by_cases hversion : protectAesCbcNoIv < st.useVer
  · simp only [hcounter, hversion, hkey, hroom, if_true, if_false, ne_eq, not_true_eq_false,
      cipherOf]
  · simp only [hcounter, hversion, hkey, hroom, if_false, ne_eq, not_true_eq_false, cipherOf]

/-- A cipher text that is not empty, and whose length fits into 16 bits. -/
structure Fits (cipher : List UInt8) : Prop where
  ne_nil : cipher ≠ []
  length_lt : cipher.length < 2 ^ 16
  blocks : cipher.length % 16 = 0

theorem frame_eq_none (base64 : MbedtlsBase64) (h : cipher.length % 2 ^ 16 = 0) :
    frame base64 version iv cipher = none := by
  have hencode : icEncodeBase64 base64 cipher (cipher.length % 2 ^ 16) = none := if_pos h
  rw [frame, hencode]

theorem frame_eq (base64 : MbedtlsBase64) (hiv : iv.length = 16) (hfits : Fits cipher) :
    frame base64 version iv cipher =
      if protectAesCbcNoIv < version then
        some ('$' :: decimal version ++ '$' :: encode iv ++ '$' :: encode cipher)
      else some (encode cipher) := by
  have hpos : cipher.length ≠ 0 := fun h => hfits.ne_nil (eq_nil_of_length_eq_zero h)
  have hdata : icEncodeBase64 base64 cipher (cipher.length % 2 ^ 16) = some (encode cipher) := by
    rw [Nat.mod_eq_of_lt hfits.length_lt, icEncodeBase64_eq base64 cipher hpos, take_length]
  have hvector : icEncodeBase64 base64 iv 16 = some (encode iv) := by
    rw [icEncodeBase64_eq base64 iv (by decide), ← hiv, take_length]
  rw [frame, hdata, hvector]

theorem decryptMessage_encode {iv : List UInt8} (hkey : key.length = 32) (hfits : Fits cipher) :
    decryptMessage mbedtls ⟨iv, encode cipher, version⟩ key =
      some (some ⟨(mbedtls.decryptCbc key iv cipher).rdropWhile (· = 0), version⟩) := by
  have hlt := hfits.length_lt
  have hblocks := hfits.blocks
  obtain ⟨decoded, hdecode, htake, hroom⟩ := icDecodeBase64_encode mbedtls.base64 hlt
  have hlength : blockLength cipher.length = cipher.length := by
    unfold blockLength
    omega
  have hinside : ¬ decoded.length < cipher.length := by omega
  simp only [decryptMessage, hdecode, hkey, hlength, hinside, htake, if_false, ne_eq,
    not_true_eq_false]

/-- A string with version and vector is read as it was written, in every state. -/
theorem unprotectConfigData_frame (hopen : 0 < st'.counter) (hkey : key.length = 32)
    (hiv : iv.length = 16) (hfits : Fits cipher) :
    (unprotectConfigData mbedtls st' (some ('$' :: decimal protectAesCbc ++ '$' :: encode iv ++
        '$' :: encode cipher)) (some key)).1 =
      some (some ⟨(mbedtls.decryptCbc key iv cipher).rdropWhile (· = 0), protectAesCbc⟩) := by
  have hcounter : st'.counter ≠ 0 := by omega
  have hne : iv ≠ [] := by
    rintro rfl
    cases hiv
  have hshort : iv.length < 2 ^ 16 := by omega
  obtain ⟨decoded, hdecode, htake, -⟩ := icDecodeBase64_encode mbedtls.base64 hshort
  rw [hiv] at hdecode htake
  simp only [unprotectConfigData, hcounter, if_false, readMessage,
    extractParts_frame hne hfits.ne_nil, hdecode, htake]
  exact decryptMessage_encode mbedtls hkey hfits

/-- A string without version is read as one of the older format. -/
theorem unprotectConfigData_legacy (hopen : 0 < st'.counter) (hkey : key.length = 32)
    (hfits : Fits cipher) :
    (unprotectConfigData mbedtls st' (some (encode cipher)) (some key)).1 =
      some (some ⟨(mbedtls.decryptCbc key zeroIv cipher).rdropWhile (· = 0),
        if st'.verWasSet then (versionOf (encode cipher)).getD protectIdUndefined
        else protectAesCbcNoIv⟩) := by
  have hcounter : st'.counter ≠ 0 := by omega
  obtain ⟨parts, hparts, hversion⟩ := extractParts_legacy hfits.ne_nil
  rw [← hversion]
  simp only [unprotectConfigData, hcounter, if_false, readMessage, hparts, afterStrtok_encode]
  cases st'.verWasSet <;> exact decryptMessage_encode mbedtls hkey hfits

/-- A value is written in one state and read in another: it comes back, with the version that
it was written with. -/
def RoundTrips (st st' : ProtectState) (iv s key : List UInt8) : Prop :=
  ∃ text, protectConfigData mbedtls st (some iv) (some s) (some key) = some (some text) ∧
    (unprotectConfigData mbedtls st' (some text) (some key)).1 =
      some (some ⟨s, st.writtenVersion⟩)

/-- The version of a value in the older format is reported: no version was asked for, or the string
happens to begin with the right number. -/
def ReportsLegacy (st' : ProtectState) (s key : List UInt8) : Prop :=
  st'.verWasSet = false ∨
    versionOf (Base64.encode (cipherOf mbedtls zeroIv s key)) = some protectAesCbcNoIv

/-- The cipher text of a value has whole blocks, and decryption gives the value back. -/
theorem decrypt_cipherOf (hiv : iv.length = 16) (hkey : key.length = 32) (hs : ∀ b ∈ s, b ≠ 0)
    (hlength : s.length ≤ 65535) :
    (mbedtls.decryptCbc key iv (cipherOf mbedtls iv s key)).rdropWhile (· = 0) = s := by
  have hblocks : (pad (blockLength s.length) s).length % 16 = 0 := by
    rw [length_pad]
    · unfold blockLength
      omega
    · rw [blockLength_eq hlength]
      omega
  rw [cipherOf, mbedtls.decrypt_encrypt key iv _ hkey hiv hblocks]
  exact rdropWhile_pad hs

theorem fits_cipherOf (hpos : 0 < s.length) (hshort : s.length ≤ 65520) :
    Fits (cipherOf mbedtls iv s key) := by
  have hcipher : (cipherOf mbedtls iv s key).length = (s.length + 15) / 16 * 16 :=
    length_cipherOf mbedtls (by omega)
  refine ⟨ne_nil_of_length_pos ?_, ?_, ?_⟩
  · omega
  · omega
  · omega

/-- The empty value and the longest ones cannot be written. -/
theorem protectConfigData_unfit (hopen : 0 < st.counter) (hkey : key.length = 32)
    (hlength : s.length ≤ 65535) (hunfit : ¬ (0 < s.length ∧ s.length ≤ 65520)) :
    protectConfigData mbedtls st (some iv) (some s) (some key) = some none := by
  have hnone : ∀ iv, (cipherOf mbedtls iv s key).length % 2 ^ 16 = 0 := by
    intro iv
    rw [length_cipherOf mbedtls hlength]
    omega
  rw [protectConfigData_eq mbedtls hopen hkey hlength, frame_eq_none _ (hnone _),
    frame_eq_none _ (hnone _), ite_self]

theorem roundTrips_latest (hopen : 0 < st.counter) (hopen' : 0 < st'.counter)
    (hiv : iv.length = 16) (hkey : key.length = 32) (hs : ∀ b ∈ s, b ≠ 0) (hpos : 0 < s.length)
    (hshort : s.length ≤ 65520) (hlatest : st.useVer = protectAesCbc) :
    RoundTrips mbedtls st st' iv s key := by
  have hfits : Fits (cipherOf mbedtls iv s key) := fits_cipherOf mbedtls hpos hshort
  have hlength : s.length ≤ 65535 := by omega
  have hversion : protectAesCbcNoIv < st.useVer := by
    rw [hlatest]
    decide
  refine ⟨'$' :: decimal protectAesCbc ++ '$' :: encode iv ++
    '$' :: encode (cipherOf mbedtls iv s key), ?_, ?_⟩
  · rw [protectConfigData_eq mbedtls hopen hkey hlength, if_pos hversion, frame_eq _ hiv hfits,
      if_pos hversion, hlatest]
  · rw [unprotectConfigData_frame mbedtls hopen' hkey hiv hfits,
      decrypt_cipherOf mbedtls hiv hkey hs hlength, ProtectState.writtenVersion, if_pos hversion,
      hlatest]

/-- In the older format the value comes back, but the version may not be reported. -/
theorem roundTrips_legacy_iff (hopen : 0 < st.counter) (hopen' : 0 < st'.counter)
    (hkey : key.length = 32) (hs : ∀ b ∈ s, b ≠ 0) (hpos : 0 < s.length)
    (hshort : s.length ≤ 65520) (hlegacy : ¬ protectAesCbcNoIv < st.useVer) :
    RoundTrips mbedtls st st' iv s key ↔ ReportsLegacy mbedtls st' s key := by
  have hfits : Fits (cipherOf mbedtls zeroIv s key) := fits_cipherOf mbedtls hpos hshort
  have hlength : s.length ≤ 65535 := by omega
  have hzero : zeroIv.length = 16 := by decide
  unfold RoundTrips ReportsLegacy
  rw [protectConfigData_eq mbedtls hopen hkey hlength, if_neg hlegacy, frame_eq _ hzero hfits,
    if_neg hlegacy, ProtectState.writtenVersion, if_neg hlegacy]
  simp only [Option.some.injEq, exists_eq_left',
    unprotectConfigData_legacy mbedtls hopen' hkey hfits,
    decrypt_cipherOf mbedtls hzero hkey hs hlength, PcData.mk.injEq, true_and]
  cases st'.verWasSet with
  | false => simp
  | true =>
    -- an undefined version is not the older one
    cases hversion : versionOf (encode (cipherOf mbedtls zeroIv s key)) with
    | none => simp [protectIdUndefined, protectAesCbcNoIv]
    | some version => simp

/-- With a given cipher, a value without zeros comes back with its version exactly if it is not
empty, the cipher text has fewer than `2 ^ 16` bytes, and a version without vector is reported. -/
theorem roundTrips_iff (hopen : 0 < st.counter) (hopen' : 0 < st'.counter) (hiv : iv.length = 16)
    (hkey : key.length = 32) (hs : ∀ b ∈ s, b ≠ 0) (hlength : s.length ≤ 65535) :
    RoundTrips mbedtls st st' iv s key ↔
      0 < s.length ∧ s.length ≤ 65520 ∧
        (st.useVer = protectAesCbc ∨ ReportsLegacy mbedtls st' s key) := by
  by_cases hfits : 0 < s.length ∧ s.length ≤ 65520
  · obtain ⟨hpos, hshort⟩ := hfits
    simp only [hpos, hshort, true_and]
    by_cases hlatest : st.useVer = protectAesCbc
    · simp only [hlatest, true_or, iff_true]
      exact roundTrips_latest mbedtls hopen hopen' hiv hkey hs hpos hshort hlatest
    · have hlegacy : ¬ protectAesCbcNoIv < st.useVer := by
        have hle := st.useVer_le
        unfold protectAesCbcNoIv
        unfold protectAesCbc at hle hlatest
        omega
      simp only [hlatest, false_or]
      exact roundTrips_legacy_iff mbedtls hopen hopen' hkey hs hpos hshort hlegacy
  · constructor
    · rintro ⟨text, hwritten, -⟩
      rw [protectConfigData_unfit mbedtls hopen hkey hlength hfits] at hwritten
      cases hwritten
    · rintro ⟨hpos, hshort, -⟩
      exact absurd ⟨hpos, hshort⟩ hfits

/-- A cipher that adds the same bits to every byte. -/
def maskMbedtls (mask : UInt8) : Mbedtls where
  base64 := .strict
  encryptCbc _ _ input := input.map (· ^^^ mask)
  decryptCbc _ _ input := input.map (· ^^^ mask)
  length_encryptCbc _ _ _ := length_map _
  decrypt_encrypt _ _ input _ _ _ := by
    simp [Function.comp_def, UInt8.xor_assoc]

/-- A cipher text that begins with zero is not read as the older version. -/
theorem not_reportsLegacy_mask (b : UInt8) (rest : List UInt8) (hset : st'.verWasSet = true) :
    ¬ ReportsLegacy (maskMbedtls b) st' (b :: rest) key := by
  have hcipher : ∃ bytes, cipherOf (maskMbedtls b) zeroIv (b :: rest) key = 0 :: bytes := by
    simp [cipherOf, maskMbedtls, pad]
  obtain ⟨bytes, hcipher⟩ := hcipher
  have hencode : ∃ text, encode (0 :: bytes) = 'A' :: text := by
    rcases bytes with _ | ⟨_, _ | ⟨_, _⟩⟩ <;> exact ⟨_, rfl⟩
  obtain ⟨text, htext⟩ := hencode
  rw [ReportsLegacy, hset, hcipher, htext]
  have hversion : versionOf ('A' :: text) = some 0 := rfl
  rw [hversion]
  decide

/-- A value without zeros comes back with its version, whatever the cipher is, exactly if it is not
empty, the cipher text has fewer than `2 ^ 16` bytes, and the value is written with the version that
has a vector, or read while no version was asked for. -/
theorem roundTrip_iff (hopen : 0 < st.counter) (hopen' : 0 < st'.counter) (hiv : iv.length = 16)
    (hkey : key.length = 32) (hs : ∀ b ∈ s, b ≠ 0) (hlength : s.length ≤ 65535) :
    (∀ mbedtls, RoundTrips mbedtls st st' iv s key) ↔
      0 < s.length ∧ s.length ≤ 65520 ∧
        (st.useVer = protectAesCbc ∨ st'.verWasSet = false) := by
  simp only [roundTrips_iff _ hopen hopen' hiv hkey hs hlength]
  constructor
  · intro h
    obtain ⟨hpos, hshort, -⟩ := h (maskMbedtls 0)
    obtain ⟨b, rest, rfl⟩ := exists_cons_of_length_pos hpos
    refine ⟨hpos, hshort, (h (maskMbedtls b)).2.2.imp_right fun hreports => ?_⟩
    by_contra hset
    exact not_reportsLegacy_mask b rest (eq_true_of_ne_false hset) hreports
  · rintro ⟨hpos, hshort, hversion⟩ mbedtls
    exact ⟨hpos, hshort, hversion.imp_right .inl⟩

/-- A cipher that changes nothing. -/
def plainMbedtls : Mbedtls where
  base64 := .strict
  encryptCbc _ _ input := input
  decryptCbc _ _ input := input
  length_encryptCbc _ _ _ := rfl
  decrypt_encrypt _ _ _ _ _ _ := rfl

def zeroKey : List UInt8 := List.replicate 32 0

/-- A session with the version that is used if none was asked for. -/
def defaultSession : ProtectState := openProtectConfigSession .initial

/-- A session in which the older format was asked for. -/
def legacySession : ProtectState := (forceProtectVersion protectAesCbcNoIv true defaultSession).1

theorem roundTrip_iff_hi :
    RoundTrips plainMbedtls defaultSession defaultSession zeroIv [104, 105] zeroKey ∧
      ¬ ∀ mbedtls, RoundTrips mbedtls legacySession legacySession zeroIv [104, 105] zeroKey := by
  constructor
  · refine (roundTrip_iff (by decide) (by decide) (by decide) (by decide) (by simp)
      (by decide)).mpr ?_ plainMbedtls
    exact ⟨by decide, by decide, .inl rfl⟩
  · rw [roundTrip_iff (by decide) (by decide) (by decide) (by decide) (by simp) (by decide)]
    decide

/-- The empty value and one of 65521 bytes are not written, and the version of a value in the older
format is not reported. -/
theorem value_lost :
    protectConfigData plainMbedtls defaultSession (some zeroIv) (some []) (some zeroKey) =
      some none ∧
      protectConfigData plainMbedtls defaultSession (some zeroIv) (some (List.replicate 65521 1))
        (some zeroKey) = some none ∧
      ∃ text, protectConfigData plainMbedtls legacySession (some zeroIv) (some [104, 105])
          (some zeroKey) = some (some text) ∧
        (unprotectConfigData plainMbedtls legacySession (some text) (some zeroKey)).1 =
          some (some ⟨[104, 105], protectIdUndefined⟩) := by
  refine ⟨?_, ?_, ?_⟩
  · exact protectConfigData_unfit plainMbedtls (by decide) (by decide) (by decide) (by decide)
  · apply protectConfigData_unfit plainMbedtls (by decide) (by decide)
    · rw [length_replicate]
      decide
    · rw [length_replicate]
      decide
  · refine ⟨Base64.encode (cipherOf plainMbedtls zeroIv [104, 105] zeroKey), ?_, ?_⟩
    · rfl
    · rfl

end ZilkerSdk.Config

import ZilkerSdk.Lib.Json
import ZilkerSdk.Lib.Run
import ZilkerSdk.Util.Base64

/-!
# Encrypted values and the keys of a namespace

Model of `simpleProtectConfigData` and `simpleUnprotectConfigData` in
`libs/config/c/src/simpleProtectConfig.c`, for one namespace and calls from any number of threads.

The key of a namespace is in a file.  A call that encrypts reads it; if it finds none it makes a
new key, saves it, whether or not there is one by now and whether or not that works, and encrypts
with the new key.

Reading and saving the file are one step each, and each can fail.  `protectConfigData` and
`unprotectConfigData` are parameters (`Protection`).  The session that `simpleProtectConfigData`
opens is never closed, so from then on a session can always be opened.
-/

namespace ZilkerSdk.Config

open Lib Types Util List Option

/-! ## The file of the key -/

/-- `obfuscate`, which is not implemented. -/
def obfuscate (passphrase : CString) (input : List UInt8) : Option (List UInt8) :=
  if passphrase.length = 0 ∨ input.length = 0 then none else some input

/-- `unobfuscate`, which is not implemented. -/
def unobfuscate (passphrase : CString) (input : List UInt8) : Option (List UInt8) :=
  if passphrase.length = 0 ∨ input.length = 0 then none else some input

def obfuscateKey : CString := "config".toList

def defaultKeyIdentifier : CString := "default".toList

/-- `readNamespaceKey`, after the file was loaded.  A text that is not JSON is like `null`. -/
def readNamespaceKey (base64 : MbedtlsBase64) (identifier : CString) (body : Json) :
    Option (List UInt8) :=
  match body.getObjectItem identifier with
  | some (.string encoded) =>
    if encoded = [] then none
    else
      match icDecodeBase64 base64 encoded with
      | some (decoded, decodeLen) => unobfuscate obfuscateKey (decoded.take decodeLen)
      | none => none
  | _ => none

/-- `writeNamespaceKey`, until the file is saved. -/
def writeNamespaceKey (base64 : MbedtlsBase64) (identifier : CString) (key : List UInt8) :
    Option Json :=
  match obfuscate obfuscateKey key with
  | none => none
  | some ob =>
    match icEncodeBase64 base64 ob (ob.length % 2 ^ 16) with
    | none => none
    | some encodedKey => some (.object [(identifier, .string encodedKey)])

/-- A key that was saved can be read. -/
theorem readNamespaceKey_write (base64 : MbedtlsBase64) {key : List UInt8}
    (hkey : key.length = 32) :
    ∃ body, writeNamespaceKey base64 defaultKeyIdentifier key = some body ∧
      readNamespaceKey base64 defaultKeyIdentifier body = some key := by
  have hpass : ¬ (obfuscateKey.length = 0 ∨ key.length = 0) := by
    rw [hkey]
    decide
  have hlt : key.length < 2 ^ 16 := by omega
  have hencode : icEncodeBase64 base64 key (key.length % 2 ^ 16) = some (Base64.encode key) := by
    rw [Nat.mod_eq_of_lt hlt, icEncodeBase64_eq base64 key (by omega), take_length]
  have hne : Base64.encode key ≠ [] := by
    apply Base64.encode_ne_nil
    rintro rfl
    cases hkey
  obtain ⟨decoded, hdecode, htake, -⟩ := icDecodeBase64_encode base64 hlt
  refine ⟨.object [(defaultKeyIdentifier, .string (Base64.encode key))], ?_, ?_⟩
  · simp only [writeNamespaceKey, obfuscate, if_neg hpass, hencode]
  · have hitem : (Json.object [(defaultKeyIdentifier, .string (Base64.encode key))]).getObjectItem
        defaultKeyIdentifier = some (.string (Base64.encode key)) := by
      simp [Json.getObjectItem, Json.sameName]
    simp only [readNamespaceKey, hitem, if_neg hne, hdecode, htake, unobfuscate, if_neg hpass]

/-! ## Calls -/

/-- `protectConfigData`, with the random bytes it takes, and `unprotectConfigData`. -/
structure Protection where
  base64 : MbedtlsBase64
  protect : (random key : List UInt8) → (plain : CString) → Option CString
  unprotect : (key : List UInt8) → (text : CString) → Option CString
  unprotect_protect : ∀ random key plain text, protect random key plain = some text →
    unprotect key text = some plain

/-- A text and what was encrypted. -/
structure Protected where
  text : CString
  plain : CString
  deriving DecidableEq

/-- Where a call is.  A call that decrypts knows the texts that were returned before it began. -/
inductive Call where
  /-- `simpleProtectConfigData`, about to load the file -/
  | reading (plain : CString)
  /-- no key was found -/
  | creating (plain : CString)
  | saving (plain : CString) (key : List UInt8)
  /-- in `simpleProtectEncrypt`, with the secret or without -/
  | encrypting (plain : CString) (key : Option (List UInt8))
  /-- `simpleUnprotectConfigData`, about to load the file -/
  | loading (text : CString) (known : List Protected)
  /-- in `simpleProtectDecrypt`, with the secret or without -/
  | decrypting (text : CString) (known : List Protected) (loaded : Bool) (key : Option (List UInt8))
  | done
  deriving DecidableEq

structure SimpleState where
  /-- the file of the key, as far as it was parsed -/
  file : Option Json
  /-- a session is open that is never closed -/
  pinned : Bool
  generated : List (List UInt8)
  calls : List Call
  returned : List Protected

/-- What `simpleUnprotectConfigData` returns, and whether it could read the file. -/
structure Unprotected where
  text : CString
  known : List Protected
  loaded : Bool
  result : Option CString
  deriving DecidableEq

/-- What a thread does next: it begins a call, or goes on with one.  The flags say whether a session
could be opened, and whether the file was loaded or saved. -/
inductive SimpleEvent where
  | protect (plain : CString) (opened : Bool)
  | unprotect (text : CString) (opened : Bool)
  | load (call : Nat) (ok : Bool)
  | generate (call : Nat) (key : Option (List UInt8))
  | save (call : Nat) (ok : Bool)
  | encrypt (call : Nat) (random : List UInt8)
  | decrypt (call : Nat) (opened : Bool)

namespace SimpleState

/-- The key that a call would find in the file. -/
def stored (base64 : MbedtlsBase64) (s : SimpleState) : Option (List UInt8) :=
  s.file.bind (readNamespaceKey base64 defaultKeyIdentifier)

/-- `openProtectConfigSession` -/
def opens (s : SimpleState) (opened : Bool) : Bool := s.pinned || opened

end SimpleState

/-- The file is loaded. -/
def simpleLoad (base64 : MbedtlsBase64) (s : SimpleState) (call : Nat) (ok : Bool) :
    Option SimpleState :=
  match s.calls[call]? with
  | some (.reading plain) =>
    match if ok then s.stored base64 else none with
    | some key => some { s with calls := s.calls.set call (.encrypting plain (some key)) }
    | none => some { s with calls := s.calls.set call (.creating plain) }
  | some (.loading text known) =>
    some { s with
      calls := s.calls.set call (.decrypting text known (ok && s.file.isSome)
        (if ok then s.stored base64 else none)) }
  | _ => none

/-- `generateProtectPassword`.  A key is never generated twice. -/
def simpleGenerate (s : SimpleState) (call : Nat) (key : Option (List UInt8)) :
    Option SimpleState :=
  match s.calls[call]?, key with
  | some (.creating plain), some key =>
    if key.length = 32 ∧ key ∉ s.generated then
      some { s with calls := s.calls.set call (.saving plain key), generated := key :: s.generated }
    else none
  | some (.creating plain), none =>
    some { s with calls := s.calls.set call (.encrypting plain none) }
  | _, _ => none

/-- The file is saved; nobody looks at the result. -/
def simpleSave (base64 : MbedtlsBase64) (s : SimpleState) (call : Nat) (ok : Bool) :
    Option SimpleState :=
  match s.calls[call]? with
  | some (.saving plain key) =>
    match if ok then writeNamespaceKey base64 defaultKeyIdentifier key else none with
    | some body =>
      some { s with calls := s.calls.set call (.encrypting plain (some key)), file := some body }
    | none => some { s with calls := s.calls.set call (.encrypting plain (some key)) }
  | _ => none

/-- `simpleProtectEncrypt` -/
def simpleEncrypt (protection : Protection) (s : SimpleState) (call : Nat) (random : List UInt8) :
    Option SimpleState :=
  match s.calls[call]? with
  | some (.encrypting plain key) =>
    match key.bind fun key => protection.protect random key plain with
    | some text =>
      some { s with calls := s.calls.set call .done, returned := ⟨text, plain⟩ :: s.returned }
    | none => some { s with calls := s.calls.set call .done }
  | _ => none

/-- `simpleProtectDecrypt` -/
def simpleDecrypt (protection : Protection) (s : SimpleState) (call : Nat) (opened : Bool) :
    Option (SimpleState × Unprotected) :=
  match s.calls[call]? with
  | some (.decrypting text known loaded key) =>
    some ({ s with calls := s.calls.set call .done }, ⟨text, known, loaded,
      if s.opens opened then key.bind fun key => protection.unprotect key text else none⟩)
  | _ => none

def simpleStep (protection : Protection) (s : SimpleState) :
    SimpleEvent → Option (SimpleState × Option Unprotected)
  | .protect plain opened =>
    if s.opens opened then
      some ({ s with pinned := true, calls := s.calls ++ [.reading plain] }, none)
    else some (s, none)
  | .unprotect text opened =>
    if s.opens opened then
      some ({ s with calls := s.calls ++ [.loading text s.returned] }, none)
    -- without a secret nothing is read
    else some (s, some ⟨text, s.returned, false, none⟩)
  | .load call ok => (simpleLoad protection.base64 s call ok).map fun s' => (s', none)
  | .generate call key => (simpleGenerate s call key).map fun s' => (s', none)
  | .save call ok => (simpleSave protection.base64 s call ok).map fun s' => (s', none)
  | .encrypt call random => (simpleEncrypt protection s call random).map fun s' => (s', none)
  | .decrypt call opened => (simpleDecrypt protection s call opened).map fun r => (r.1, some r.2)

/-! ## The first key -/

/-- A new key is saved, and no key was stored before. -/
def SavesFirst (base64 : MbedtlsBase64) (s : SimpleState) : SimpleEvent → Prop
  | .save _ ok => ok = true ∧ s.stored base64 = none
  | _ => True

instance (base64 : MbedtlsBase64) (s : SimpleState) (event : SimpleEvent) :
    Decidable (SavesFirst base64 s event) := by
  delta SavesFirst
  split <;> infer_instance

/-- A text is turned back into what was encrypted. -/
def Unprotected.Readable (o : Unprotected) : Prop :=
  o.loaded = true → ∀ plain, ⟨o.text, plain⟩ ∈ o.known → o.result = some plain

/-- The text was made with this key. -/
def Protection.Made (protection : Protection) (key : List UInt8) (p : Protected) : Prop :=
  ∃ random, protection.protect random key p.plain = some p.text

/-- What is true of a call. -/
def Call.Sound (protection : Protection) (s : SimpleState) : Call → Prop
  | .reading _ => s.pinned = true
  | .creating _ => s.pinned = true
  | .saving _ key => s.pinned = true ∧ key.length = 32
  | .encrypting _ key => s.pinned = true ∧ ∀ k, key = some k → s.stored protection.base64 = some k
  | .loading _ known => known ⊆ s.returned
  | .decrypting _ known loaded key => known ⊆ s.returned ∧
    (loaded = true → ∀ p ∈ known, ∃ k, key = some k ∧ protection.Made k p)
  | .done => True

/-- Every text was made with the key that is stored. -/
structure SimpleState.Sound (protection : Protection) (s : SimpleState) : Prop where
  calls : ∀ call ∈ s.calls, call.Sound protection s
  returned : ∀ p ∈ s.returned, ∃ key, s.stored protection.base64 = some key ∧
    protection.Made key p
  pinned : s.returned ≠ [] → s.pinned = true

/-- What never goes away. -/
structure SimpleState.Extends (base64 : MbedtlsBase64) (s s' : SimpleState) : Prop where
  stored : ∀ key, s.stored base64 = some key → s'.stored base64 = some key
  returned : s.returned ⊆ s'.returned
  pinned : s.pinned = true → s'.pinned = true

variable {protection : Protection} {s s' : SimpleState}

theorem Call.Sound.mono {call : Call} (h : call.Sound protection s)
    (hext : s.Extends protection.base64 s') : call.Sound protection s' := by
  cases call with
  | reading | creating => exact hext.pinned h
  | saving plain key => exact ⟨hext.pinned h.1, h.2⟩
  | encrypting plain key => exact ⟨hext.pinned h.1, fun k hk => hext.stored k (h.2 k hk)⟩
  | loading text known => exact List.Subset.trans h hext.returned
  | decrypting text known loaded key => exact ⟨List.Subset.trans h.1 hext.returned, h.2⟩
  | done => trivial

theorem SimpleState.Sound.calls_mono (h : s.Sound protection)
    (hext : s.Extends protection.base64 s') : ∀ call ∈ s.calls, call.Sound protection s' :=
  fun call hcall => (h.calls call hcall).mono hext

variable {i : Nat}

section

variable (h : s.Sound protection)
include h

theorem SimpleState.Sound.goesOn {next : Call} (hnext : next.Sound protection s)
    (generated : List (List UInt8)) :
    SimpleState.Sound protection
      { s with calls := s.calls.set i next, generated := generated } where
  __ := h
  calls call hcall := by
    have hext : s.Extends protection.base64
        { s with calls := s.calls.set i next, generated := generated } :=
      ⟨fun _ hkey => hkey, List.Subset.refl _, fun hpinned => hpinned⟩
    obtain hold | rfl := mem_or_eq_of_mem_set hcall
    · exact h.calls_mono hext call hold
    · exact hnext.mono hext

theorem SimpleState.Sound.begins {next : Call} {pinned : Bool}
    (hpinned : s.pinned = true → pinned = true)
    (hnext : next.Sound protection { s with pinned := pinned, calls := s.calls ++ [next] }) :
    SimpleState.Sound protection { s with pinned := pinned, calls := s.calls ++ [next] } where
  calls call hcall := by
    have hext : s.Extends protection.base64
        { s with pinned := pinned, calls := s.calls ++ [next] } :=
      ⟨fun _ hkey => hkey, List.Subset.refl _, hpinned⟩
    obtain hold | hnew := mem_append.mp hcall
    · exact h.calls_mono hext call hold
    · rw [mem_singleton.mp hnew]
      exact hnext
  returned := h.returned
  pinned hne := hpinned (h.pinned hne)

theorem SimpleState.Sound.load {ok : Bool}
    (hstep : simpleLoad protection.base64 s i ok = some s') :
    s'.Sound protection := by
  revert hstep
  fun_cases simpleLoad protection.base64 s i ok <;> rintro ⟨⟩
  case case1 hcall key hkey =>
    apply h.goesOn
    refine ⟨h.calls _ (mem_of_getElem? hcall), fun k hk => ?_⟩
    rw [← some.inj hk]
    exact (ite_none_right_eq_some.mp hkey).2
  case case2 hcall _ =>
    have hreading : s.pinned = true := h.calls _ (mem_of_getElem? hcall)
    apply h.goesOn
    exact hreading
  case case3 known hcall =>
    have hloading : known ⊆ s.returned := h.calls _ (mem_of_getElem? hcall)
    apply h.goesOn
    refine ⟨hloading, ?_⟩
    -- the file was read, so the key is the one that the texts were made with
    intro hloaded p hp
    obtain ⟨key, hkey, hmade⟩ := h.returned p (hloading hp)
    rw [Bool.and_eq_true] at hloaded
    rw [if_pos hloaded.1]
    exact ⟨key, hkey, hmade⟩

theorem SimpleState.Sound.generate {key : Option (List UInt8)}
    (hstep : simpleGenerate s i key = some s') : s'.Sound protection := by
  revert hstep
  fun_cases simpleGenerate s i key <;> rintro ⟨⟩
  case case1 hcall hkey =>
    apply h.goesOn
    exact ⟨h.calls _ (mem_of_getElem? hcall), hkey.1⟩
  case case3 hcall =>
    apply h.goesOn
    exact ⟨h.calls _ (mem_of_getElem? hcall), fun k hk => absurd hk.symm (some_ne_none k)⟩

/-- The first key is saved; nothing was made with another one. -/
theorem SimpleState.Sound.save (hfirst : s.stored protection.base64 = none)
    (hstep : simpleSave protection.base64 s i true = some s') : s'.Sound protection := by
  unfold simpleSave at hstep
  split at hstep
  · rename_i plain key hcall
    obtain ⟨hpinned, hlength⟩ : s.pinned = true ∧ key.length = 32 :=
      h.calls _ (mem_of_getElem? hcall)
    obtain ⟨body, hwrite, hread⟩ := readNamespaceKey_write protection.base64 hlength
    rw [if_pos rfl, hwrite] at hstep
    cases hstep
    have hext : s.Extends protection.base64
        { s with calls := s.calls.set i (.encrypting plain (some key)), file := some body } :=
      ⟨fun _ hkey => absurd (hfirst.symm.trans hkey) (some_ne_none _).symm,
        List.Subset.refl _, fun hpinned => hpinned⟩
    refine ⟨fun call hcall' => ?_, fun p hp => ?_, h.pinned⟩
    · obtain hold | rfl := mem_or_eq_of_mem_set hcall'
      · exact h.calls_mono hext call hold
      · refine ⟨hpinned, fun k hk => ?_⟩
        rw [← some.inj hk]
        exact hread
    · obtain ⟨key', hkey', -⟩ := h.returned p hp
      exact absurd (hfirst.symm.trans hkey') (some_ne_none _).symm
  · cases hstep

theorem SimpleState.Sound.encrypt {random : List UInt8}
    (hstep : simpleEncrypt protection s i random = some s') : s'.Sound protection := by
  revert hstep
  fun_cases simpleEncrypt protection s i random <;> rintro ⟨⟩
  case case1 plain key hcall text htext =>
    obtain ⟨hpinned, hkey⟩ : s.pinned = true ∧
        ∀ k, key = some k → s.stored protection.base64 = some k :=
      h.calls _ (mem_of_getElem? hcall)
    obtain ⟨k, hk, hmade⟩ := bind_eq_some_iff.mp htext
    have hext : s.Extends protection.base64
        { s with calls := s.calls.set i .done, returned := ⟨text, plain⟩ :: s.returned } :=
      ⟨fun _ hkey => hkey, subset_cons_self _ _, fun hpinned => hpinned⟩
    refine ⟨fun call hcall' => ?_, fun p hp => ?_, fun _ => hpinned⟩
    · obtain hold | rfl := mem_or_eq_of_mem_set hcall'
      · exact h.calls_mono hext call hold
      · trivial
    · obtain rfl | hold := mem_cons.mp hp
      · exact ⟨k, hkey k hk, random, hmade⟩
      · exact h.returned p hold
  case case2 =>
    apply h.goesOn
    trivial

/-- A call that could read the file returns what was encrypted. -/
theorem SimpleState.Sound.decrypt {opened : Bool} {o : Unprotected}
    (hstep : simpleDecrypt protection s i opened = some (s', o)) :
    s'.Sound protection ∧ o.Readable := by
  unfold simpleDecrypt at hstep
  split at hstep
  · rename_i text known loaded key hcall
    obtain ⟨hknown, hkeys⟩ : known ⊆ s.returned ∧
        (loaded = true → ∀ p ∈ known, ∃ k, key = some k ∧ protection.Made k p) :=
      h.calls _ (mem_of_getElem? hcall)
    cases hstep
    have hdone : Call.Sound protection s .done := trivial
    refine ⟨h.goesOn hdone _, fun hloaded plain hmem => ?_⟩
    obtain ⟨k, hk, random, hmade⟩ := hkeys hloaded _ hmem
    have hpinned : s.pinned = true := h.pinned (ne_nil_of_mem (hknown hmem))
    have hopens : s.opens opened = true := by rw [SimpleState.opens, hpinned, Bool.true_or]
    rw [if_pos hopens, hk]
    exact protection.unprotect_protect random k plain text hmade
  · cases hstep

/-- A step that saves a key, if at all, as the first one, keeps every text readable. -/
theorem SimpleState.Sound.step {event : SimpleEvent} {o : Option Unprotected}
    (hfirst : SavesFirst protection.base64 s event)
    (hstep : simpleStep protection s event = some (s', o)) :
    s'.Sound protection ∧ ∀ u, o = some u → u.Readable := by
  have hsilent : ∀ u : Unprotected, (none : Option Unprotected) = some u → u.Readable :=
    fun u hu => absurd hu.symm (some_ne_none u)
  cases event with
  | protect plain opened =>
    dsimp only [simpleStep] at hstep
    split at hstep <;> cases hstep
    · exact ⟨h.begins (fun _ => rfl) rfl, hsilent⟩
    · exact ⟨h, hsilent⟩
  | unprotect text opened =>
    dsimp only [simpleStep] at hstep
    split at hstep <;> cases hstep
    · exact ⟨h.begins (fun hpinned => hpinned) (List.Subset.refl _), hsilent⟩
    · refine ⟨h, fun u hu => ?_⟩
      rw [← some.inj hu]
      intro hloaded
      cases hloaded
  | load call ok =>
    obtain ⟨hs₁, rfl⟩ := map_output_eq_some_iff.mp hstep
    exact ⟨h.load hs₁, hsilent⟩
  | generate call key =>
    obtain ⟨hs₁, rfl⟩ := map_output_eq_some_iff.mp hstep
    exact ⟨h.generate hs₁, hsilent⟩
  | save call ok =>
    obtain ⟨hs₁, rfl⟩ := map_output_eq_some_iff.mp hstep
    -- the only step that could replace a key
    obtain ⟨rfl, hnone⟩ := hfirst
    exact ⟨h.save hnone hs₁, hsilent⟩
  | encrypt call random =>
    obtain ⟨hs₁, rfl⟩ := map_output_eq_some_iff.mp hstep
    exact ⟨h.encrypt hs₁, hsilent⟩
  | decrypt call opened =>
    obtain ⟨⟨s₁, u₁⟩, hs₁, ⟨⟩⟩ := map_eq_some_iff.mp hstep
    obtain ⟨hsound, hreadable⟩ := h.decrypt hs₁
    refine ⟨hsound, fun u hu => ?_⟩
    rw [← some.inj hu]
    exact hreadable

end

/-- The library before the first call, with any file. -/
def SimpleState.initial (file : Option Json) : SimpleState := ⟨file, false, [], [], []⟩

/-- As long as each new key is saved and is the first, every text is turned back by every later
call that can read the file. -/
theorem stays_readable (protection : Protection) (file : Option Json) {events : List SimpleEvent}
    {s : SimpleState} {os : List (Option Unprotected)}
    (hrun : run (simpleStep protection) (.initial file) events = some (s, os))
    (hfirst : Guarded (simpleStep protection) (SavesFirst protection.base64)
      (.initial file) events) : ∀ u, some u ∈ os → u.Readable := by
  intro u hu
  have hall : ∀ o ∈ os, ∀ u, o = some u → u.Readable := by
    have hinitial : (SimpleState.initial file).Sound protection :=
      ⟨nofun, nofun, fun h => absurd rfl h⟩
    refine (run_outputs (Q := fun _ o => ∀ u, o = some u → u.Readable) ?_ hinitial hfirst hrun).2.2
    intro s event s' o hsound hcond hstep
    obtain ⟨hsound', hreadable⟩ := hsound.step hcond hstep
    exact ⟨hsound', hreadable, fun _ hQ => hQ⟩
  exact hall _ hu u rfl

/-! ## Keys that are lost -/

/-- The characters of a key. -/
def keyMark (key : List UInt8) : CString := key.map fun b => Char.ofNat b.toNat

/-- A cipher that puts the key in front and looks for it. -/
def markProtection : Protection where
  base64 := .strict
  protect _ key plain := some (keyMark key ++ plain)
  unprotect key text := if (keyMark key).isPrefixOf text then some (text.drop key.length) else none
  unprotect_protect := by
    rintro random key plain text htext
    have hlength : (keyMark key).length = key.length := List.length_map _
    cases htext
    rw [if_pos (by simp), ← hlength, List.drop_left]

def firstKey : List UInt8 := List.replicate 32 1

def secondKey : List UInt8 := List.replicate 32 2

/-- One call encrypts after another, and then the first text is decrypted. -/
def oneAfterAnother : List SimpleEvent :=
  [.protect ['a'] true, .load 0 true, .generate 0 (some firstKey), .save 0 true, .encrypt 0 [],
    .protect ['b'] true, .load 1 true, .encrypt 1 [],
    .unprotect (keyMark firstKey ++ ['a']) true, .load 2 true, .decrypt 2 true]

theorem stays_readable_oneAfterAnother :
    ∃ s os, run (simpleStep markProtection) (.initial none) oneAfterAnother = some (s, os) ∧
      ∀ u, some u ∈ os → u.Readable := by
  obtain ⟨⟨s, os⟩, hrun⟩ : ∃ r, run (simpleStep markProtection) (.initial none) oneAfterAnother =
      some r := isSome_iff_exists.mp (by decide +kernel)
  exact ⟨s, os, hrun, stays_readable markProtection none hrun (by decide +kernel)⟩

/-- Two threads find no key, and each saves one. -/
def twoWriters : List SimpleEvent :=
  [.protect ['a'] true, .protect ['b'] true, .load 0 true, .load 1 true,
    .generate 0 (some firstKey), .generate 1 (some secondKey), .save 0 true, .encrypt 0 [],
    .save 1 true, .unprotect (keyMark firstKey ++ ['a']) true, .load 2 true, .decrypt 2 true]

/-- The first key cannot be saved. -/
def failedSave : List SimpleEvent :=
  [.protect ['a'] true, .load 0 true, .generate 0 (some firstKey), .save 0 false, .encrypt 0 [],
    .protect ['b'] true, .load 1 true, .generate 1 (some secondKey), .save 1 true,
    .unprotect (keyMark firstKey ++ ['a']) true, .load 2 true, .decrypt 2 true]

/-- The first key is saved, but a later call cannot load it. -/
def failedLoad : List SimpleEvent :=
  [.protect ['a'] true, .load 0 true, .generate 0 (some firstKey), .save 0 true, .encrypt 0 [],
    .protect ['b'] true, .load 1 false, .generate 1 (some secondKey), .save 1 true,
    .unprotect (keyMark firstKey ++ ['a']) true, .load 2 true, .decrypt 2 true]

/-- What the last call of the three returns: it has read the file, but the key is another one. -/
def lostText : Unprotected :=
  ⟨keyMark firstKey ++ ['a'], [⟨keyMark firstKey ++ ['a'], ['a']⟩], true, none⟩

/-- Two threads that encrypt first, a save that fails, and a load that fails. -/
theorem text_unreadable : ¬ lostText.Readable ∧
    ∀ events ∈ [twoWriters, failedSave, failedLoad],
      (run (simpleStep markProtection) (.initial none) events).map (·.2.getLast?) =
        some (some (some lostText)) := by
  refine ⟨fun h => ?_, by decide +kernel⟩
  have hresult : lostText.result = some ['a'] := h rfl ['a'] (by decide +kernel)
  cases hresult

end ZilkerSdk.Config

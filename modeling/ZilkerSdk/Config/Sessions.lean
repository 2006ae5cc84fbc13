import Mathlib.Tactic.Common

/-!
# Sessions of protected configuration data

The functions of `simpleProtectConfig.c` work in sessions of `protectConfig.c`.  The sessions are
counted; the random source is set up for the first and freed with the last.
`simpleProtectConfigData` never closes the session it opens, and a first session that cannot be
opened leaves the random source set up.
-/

namespace ZilkerSdk.Config.ProtectSession

/-- The static state of `protectConfig.c`. -/
structure Sessions where
  counter : UInt32
  /-- `entropy` and `drbg` are initialised and not freed -/
  contexts : Bool

/-- `openProtectConfigSession`, with the outcome of `mbedtls_ctr_drbg_seed`. -/
def openProtectConfigSession (s : Sessions) (seeded : Bool) : Sessions × Bool :=
  if s.counter = 0 then (⟨if seeded then 1 else 0, true⟩, seeded)
  else (⟨s.counter + 1, s.contexts⟩, true)

def closeProtectConfigSession (s : Sessions) : Sessions :=
  if s.counter = 1 then ⟨0, false⟩
  else if s.counter > 0 then ⟨s.counter - 1, s.contexts⟩
  else s

/-- What is done in a session of its own, and whether that was opened. -/
def inSession (s : Sessions) (seeded : Bool) : Sessions × Bool :=
  match openProtectConfigSession s seeded with
  | (s, false) => (s, false)
  | (s, true) => (closeProtectConfigSession s, true)

/-- `simpleProtectGetSecret`: there is a secret if a key can be read or made. -/
def simpleProtectGetSecret (s : Sessions) (seeded key : Bool) : Sessions × Bool :=
  ((inSession s seeded).1, (inSession s seeded).2 && key)

/-- `simpleProtectEncrypt` and `simpleProtectDecrypt`.  Here and below, `given` says that no
argument is `NULL`. -/
def simpleProtectCrypt (s : Sessions) (given seeded : Bool) : Sessions :=
  if given then (inSession s seeded).1 else s

/-- A call, with whether the random source can be seeded each time, and whether a key can be read or
made. -/
inductive Call where
  | simpleProtectConfigData (given opened read encrypted key : Bool)
  | simpleUnprotectConfigData (given read decrypted key : Bool)
  | simpleProtectEncrypt (given seeded : Bool)
  | simpleProtectDecrypt (given seeded : Bool)
  | simpleProtectGetSecret (seeded key : Bool)

def call (s : Sessions) : Call → Sessions
  | .simpleProtectConfigData false _ _ _ _ => s
  | .simpleProtectConfigData true opened read encrypted key =>
    match openProtectConfigSession s opened with
    | (s, false) => s
    | (s, true) =>
      let (s, secret) := simpleProtectGetSecret s read key
      simpleProtectCrypt s secret encrypted
  | .simpleUnprotectConfigData false _ _ _ => s
  | .simpleUnprotectConfigData true read decrypted key =>
    let (s, secret) := simpleProtectGetSecret s read key
    simpleProtectCrypt s secret decrypted
  | .simpleProtectEncrypt given seeded => simpleProtectCrypt s given seeded
  | .simpleProtectDecrypt given seeded => simpleProtectCrypt s given seeded
  | .simpleProtectGetSecret seeded key => (simpleProtectGetSecret s seeded key).1

/-- The counter is as before, and the contexts are freed if nobody has a session. -/
def Kept (s s' : Sessions) : Prop :=
  s'.counter = s.counter ∧ (s'.counter = 0 → s'.contexts = false)

/-- Every call leaves the sessions as they were. -/
def Balanced : Sessions → List Call → Prop
  | _, [] => True
  | s, c :: calls => Kept s (call s c) ∧ Balanced (call s c) calls

/-- A session can be opened and counted. -/
def Opens (counter : UInt32) (seeded : Bool) : Prop :=
  counter + 1 ≠ 0 ∧ (counter = 0 → seeded = true)

/-- The call closes the sessions it opens, and it can open them. -/
def Call.Closes (counter : UInt32) : Call → Prop
  | .simpleProtectConfigData given _ _ _ _ => given = false
  | .simpleUnprotectConfigData given read decrypted key =>
    given = true → Opens counter read ∧ (key = true → Opens counter decrypted)
  | .simpleProtectEncrypt given seeded | .simpleProtectDecrypt given seeded =>
    given = true → Opens counter seeded
  | .simpleProtectGetSecret seeded _ => Opens counter seeded

variable {s : Sessions}

theorem inSession_eq (s : Sessions) (seeded : Bool) :
    inSession s seeded =
      if s.counter = 0 then (⟨0, !seeded⟩, seeded)
      else (⟨if s.counter + 1 = 0 then 0 else s.counter, s.contexts⟩, true) := by
  by_cases h : s.counter = 0
  · cases seeded <;> simp [inSession, openProtectConfigSession, closeProtectConfigSession, h]
  have hone : s.counter + 1 ≠ 1 := by grind
  simp only [inSession, openProtectConfigSession, closeProtectConfigSession, h, hone, if_false]
  by_cases hzero : s.counter + 1 = 0
  · simp [hzero]
  · have hpos : s.counter + 1 > 0 := by grind
    have hsub : s.counter + 1 - 1 = s.counter := by grind
    simp only [hpos, hzero, hsub, if_true, if_false]

theorem call_kept_iff (hs : s.counter = 0 → s.contexts = false) (c : Call) :
    Kept s (call s c) ↔ c.Closes s.counter := by
  -- in each branch, what its sessions make of the counter decides
  fun_cases call s c <;>
    grind [Kept, Call.Closes, Opens, inSession_eq, openProtectConfigSession, simpleProtectGetSecret,
      simpleProtectCrypt]

/-- The calls leave the sessions as they were exactly if each one closes what it opens, and can open
it. -/
theorem balanced_iff (hs : s.counter = 0 → s.contexts = false) (calls : List Call) :
    Balanced s calls ↔ ∀ c ∈ calls, c.Closes s.counter := by
  induction calls generalizing s with
  | nil => exact iff_of_true trivial nofun
  | cons c calls ih =>
    rw [Balanced, List.forall_mem_cons, call_kept_iff hs]
    refine and_congr_right fun hc => ?_
    obtain ⟨hcounter, hcontexts⟩ := (call_kept_iff hs c).mpr hc
    rw [ih hcontexts, hcounter]

/-- With two sessions open, the random source is not asked for. -/
theorem balanced_iff_twoOpen :
    Balanced ⟨2, true⟩ [.simpleProtectGetSecret false true, .simpleProtectEncrypt true false,
      .simpleProtectDecrypt true false, .simpleUnprotectConfigData true false false true,
      .simpleProtectConfigData false true true true true] :=
  (balanced_iff (by decide) _).mpr (by simp [Call.Closes, Opens])

/-- Data are protected once, and the session stays open. -/
theorem session_left_open :
    call ⟨0, false⟩ (.simpleProtectConfigData true true true true true) = ⟨1, true⟩ ∧
      ¬ Balanced ⟨0, false⟩ [.simpleProtectConfigData true true true true true] :=
  ⟨rfl, fun h => absurd h.1.1 (by decide)⟩

end ZilkerSdk.Config.ProtectSession

import ZilkerSdk.Device.PairingRemoval
import ZilkerSdk.Util.StringUtils

/-!
# Marks that a removal leaves behind

Model of whole calls of `deviceServiceRemoveDevice`, `processBlacklistedDevices` and
`deviceServiceDeviceFound` in `services/device/core/src/deviceService.c`, made one after the
other, for any number of uuids.

A removal that does not find its device leaves a mark for a pairing that may be under way.
Nothing takes the mark away but the final check of a pairing of the same uuid, so when no
pairing is under way the mark waits for the next one.

As in `PairingRemoval`, what the drivers make of a device, the verdict on a found device, the
repair mode and the outcomes of the storage are inputs.
-/

namespace ZilkerSdk.Device.RemovalMarks

open Types Lib Util Device.Database Device.PairingRemoval

/-! ## The calls -/

/-- What the two calls share. -/
structure ServiceState where
  db : JsonDatabase
  markedForRemoval : IcHashMap Key Unit

/-- A call, with what it takes from elsewhere. -/
inductive Call where
  | removeDevice (uuid : Option CString) (deleted : Bool)
  /-- `admitted`: neither black listed nor unknown; `configured`: the device that the driver
  has set up, or none if it has failed to -/
  | deviceFound (uuid : CString) (admitted : Bool) (configured : Option IcDevice)
      (inRepairMode saved : Bool)
deriving DecidableEq

/-- What a call comes to. -/
inductive Outcome where
  | removal (result : Bool)
  | rejected
  | notConfigured
  /-- "Device marked for removal before finishing setup. Not adding..." -/
  | dropped
  | finalized (pairingSuccessful : Bool)
deriving DecidableEq

def deviceServiceRemoveDevice (s : ServiceState) (uuid : Option CString) (deleted : Bool) :
    Option (ServiceState × Outcome) := do
  let device ← jsonDatabaseGetDeviceById s.db uuid
  match device, uuid with
  | some _, _ => do
    let (db, result) ← jsonDatabaseRemoveDeviceById s.db uuid deleted
    some ({ s with db := db }, .removal result)
  | none, some uuid =>
    -- "It may currently be being added": whether it is, is not asked
    let markedForRemoval := (hashMapPut s.markedForRemoval (stringKey uuid) ()).1
    some ({ s with markedForRemoval := markedForRemoval }, .removal true)
  | none, none => some (s, .removal false)

def deviceServiceDeviceFound (s : ServiceState) (uuid : CString) (admitted : Bool)
    (configured : Option IcDevice) (inRepairMode saved : Bool) :
    Option (ServiceState × Outcome) :=
  if admitted = false then some (s, .rejected)
  else match configured with
    -- a pairing that fails here leaves a mark where it is
    | none => some (s, .notConfigured)
    | some device =>
      -- `createDevice` has given it the uuid that was found
      if device.uuid = some uuid then
        match hashMapDelete s.markedForRemoval (stringKey uuid) with
        | (markedForRemoval, true) =>
          some ({ s with markedForRemoval := markedForRemoval }, .dropped)
        | (markedForRemoval, false) => do
          let (db, result) ← finalizeNewDevice s.db device inRepairMode saved
          some (⟨db, markedForRemoval⟩, .finalized result)
      else none

def serviceStep (s : ServiceState) : Call → Option (ServiceState × Outcome)
  | .removeDevice uuid deleted => deviceServiceRemoveDevice s uuid deleted
  | .deviceFound uuid admitted configured inRepairMode saved =>
    deviceServiceDeviceFound s uuid admitted configured inRepairMode saved

/-! ## The black list -/

/-- The tokens that `strtok_r` finds between commas; it gives no empty token. -/
def blacklistedUuids (propValue : CString) : List CString :=
  (propValue.splitOn ',').filter (· ≠ [])

/-- What comes in: a call, or a new value of the black list, which is worked off as one
removal after the other (`processBlacklistedDevices`). -/
inductive Request where
  | call (call : Call)
  | processBlacklistedDevices (propValue : Option CString) (deleted : Nat → Bool)

def Request.calls : Request → List Call
  | .call c => [c]
  | .processBlacklistedDevices none _ => []
  | .processBlacklistedDevices (some propValue) deleted =>
    (blacklistedUuids propValue).zipIdx.map fun token =>
      .removeDevice (some (trimString token.1)) (deleted token.2)

/-! ## What a call does to the marks -/

/-- The uuid is marked. -/
def Marked (s : ServiceState) (k : Key) : Prop := hashMapGet s.markedForRemoval k ≠ none

/-- The uuid that a call leaves a mark for: a removal does, if its device is not stored. -/
def leavesMark (s : ServiceState) : Call → Option Key
  | .removeDevice (some uuid) _ =>
    if hashMapContains s.db.devices (stringKey uuid) then none else some (stringKey uuid)
  | _ => none

/-- The uuid that a call looks for a mark of: a pairing does, once the device is set up. -/
def looksForMark : Call → Option Key
  | .deviceFound uuid true (some _) _ _ => some (stringKey uuid)
  | _ => none

variable {s s' : ServiceState} {call : Call} {o : Outcome}

theorem marked_put_iff {k k' : Key} (m : IcHashMap Key Unit) :
    hashMapGet (hashMapPut m k ()).1 k' ≠ none ↔ hashMapGet m k' ≠ none ∨ k' = k := by
  rw [hashMapGet_put_or]
  by_cases hk : k' = k <;> simp [hk]

variable {uuid : CString}

theorem deviceServiceDeviceFound_checks {device : IcDevice} {inRepairMode saved : Bool}
    (h : deviceServiceDeviceFound s uuid true (some device) inRepairMode saved = some (s', o)) :
    s'.markedForRemoval = (hashMapDelete s.markedForRemoval (stringKey uuid)).1 ∧
      (o = .dropped ↔ Marked s (stringKey uuid)) := by
  have hmarked := hashMapDelete_snd s.markedForRemoval (stringKey uuid)
  obtain ⟨-, h⟩ := Option.ite_none_right_eq_some.mp h
  split at h
  · rename_i m hdelete
    cases h
    rw [hdelete] at hmarked ⊢
    exact ⟨rfl, by simpa [Marked, Option.isSome_iff_ne_none] using hmarked⟩
  · rename_i m hdelete
    obtain ⟨⟨db, result⟩, -, ⟨⟩⟩ := Option.bind_eq_some_iff.mp h
    rw [hdelete] at hmarked ⊢
    exact ⟨rfl, by simpa [Marked] using hmarked⟩

/-- A call leaves at most one mark, and takes away at most the one it looks for.  It drops a
pairing exactly when it finds that mark. -/
theorem call_marks (h : serviceStep s call = some (s', o)) :
    (∀ k, Marked s' k ↔ (Marked s k ∧ looksForMark call ≠ some k) ∨ leavesMark s call = some k) ∧
      (o = .dropped ↔ ∃ k, looksForMark call = some k ∧ Marked s k) := by
  cases call with
  | removeDevice uuid deleted =>
    -- a mark is left exactly if the device is not in the database
    obtain ⟨device, hget, h⟩ := Option.bind_eq_some_iff.mp h
    cases uuid with
    | none =>
      obtain rfl : none = device := by simpa [jsonDatabaseGetDeviceById, answer] using hget
      cases h
      simp [looksForMark, leavesMark]
    | some uuid =>
      rw [leavesMark, hashMapContains_eq, ← jsonDatabaseGetDeviceById_isSome hget]
      cases device with
      | some device =>
        obtain ⟨⟨db, result⟩, -, ⟨⟩⟩ := Option.bind_eq_some_iff.mp h
        simp [Marked, looksForMark]
      | none =>
        cases h
        refine ⟨fun k => ?_, by simp [looksForMark]⟩
        simp only [Marked, marked_put_iff, looksForMark]
        simp [eq_comm]
  | deviceFound uuid admitted configured inRepairMode saved =>
    cases admitted with
    | false =>
      cases h
      simp [looksForMark, leavesMark]
    | true =>
      cases configured with
      | none =>
        cases h
        simp [looksForMark, leavesMark]
      | some device =>
        obtain ⟨hmarks, hdropped⟩ := deviceServiceDeviceFound_checks h
        refine ⟨fun k => ?_, by simpa [looksForMark] using hdropped⟩
        rw [Marked, hmarks, hashMapGet_delete]
        by_cases hk : k = stringKey uuid
        · simp [looksForMark, leavesMark, hk]
        · simp [looksForMark, leavesMark, Marked, hk, Ne.symm hk]

/-! ## Histories -/

/-- Every removal of a device that is not stored is one that no pairing of this uuid comes
to its final check after. -/
def RemovalsSpent : ServiceState → List Call → Prop
  | _, [] => True
  | s, call :: calls =>
    (∀ k, leavesMark s call = some k → ∀ later ∈ calls, looksForMark later ≠ some k) ∧
      ∀ s' o, serviceStep s call = some (s', o) → RemovalsSpent s' calls

/-- No pairing is dropped exactly when neither a mark that is there nor one that a removal
leaves meets a pairing. -/
theorem not_dropped_iff_of_marks {calls : List Call} {outs : List Outcome}
    (hrun : run serviceStep s calls = some (s', outs)) :
    Outcome.dropped ∉ outs ↔
      (∀ k, Marked s k → ∀ later ∈ calls, looksForMark later ≠ some k) ∧ RemovalsSpent s calls := by
  -- the marks of the state are generalised: each call may leave one for the calls after it
  induction calls generalizing s outs with
  | nil =>
    cases hrun
    simp [RemovalsSpent]
  | cons call calls ih =>
    obtain ⟨s₁, o, os, hstep, hrest, rfl⟩ := run_cons_eq_some.mp hrun
    obtain ⟨hmarks, hdropped⟩ := call_marks hstep
    rw [List.mem_cons, not_or, ih hrest]
    constructor
    · rintro ⟨hkept, hunmet, hspent⟩
      have hfree : ∀ k, Marked s k → looksForMark call ≠ some k := by
        intro k hk hlooks
        exact hkept (hdropped.mpr ⟨k, hlooks, hk⟩).symm
      refine ⟨?_, ?_, ?_⟩
      · intro k hk later hlater
        rcases List.mem_cons.mp hlater with rfl | hlater
        · exact hfree k hk
        · exact hunmet k ((hmarks k).mpr (.inl ⟨hk, hfree k hk⟩)) later hlater
      · intro k hk later hlater
        exact hunmet k ((hmarks k).mpr (.inr hk)) later hlater
      · intro s₂ o₂ h₂
        cases hstep.symm.trans h₂
        exact hspent
    · rintro ⟨hunmet, hleaves, hspent⟩
      refine ⟨?_, ?_, hspent s₁ o hstep⟩
      · intro ho
        obtain ⟨k, hlooks, hk⟩ := hdropped.mp ho.symm
        exact hunmet k hk call List.mem_cons_self hlooks
      · intro k hk later hlater
        rcases (hmarks k).mp hk with ⟨hold, -⟩ | hnew
        · exact hunmet k hold later (List.mem_cons_of_mem _ hlater)
        · exact hleaves k hnew later hlater

/-- From a state without marks, no pairing is dropped as marked for removal exactly when no
removal of a device that is not stored comes before a pairing of its uuid. -/
theorem not_dropped_iff (s : ServiceState) (requests : List Request) (s' : ServiceState)
    (outs : List Outcome) (hfresh : s.markedForRemoval.items = [])
    (hrun : run serviceStep s (requests.flatMap Request.calls) = some (s', outs)) :
    Outcome.dropped ∉ outs ↔ RemovalsSpent s (requests.flatMap Request.calls) := by
  have hunmarked : ∀ k, ¬ Marked s k := by
    intro k
    simp [Marked, hashMapGet_eq_none_iff, hfresh]
  rw [not_dropped_iff_of_marks hrun]
  simp [hunmarked]

/-! ## Two histories -/

instance RemovalsSpent.decidable : (s : ServiceState) → (calls : List Call) →
    Decidable (RemovalsSpent s calls)
  | _, [] => isTrue trivial
  | s, call :: calls =>
    have := (RemovalsSpent.decidable · calls)
    decidable_of_iff ((∀ k ∈ leavesMark s call, ∀ later ∈ calls, looksForMark later ≠ some k) ∧
      ∀ r ∈ serviceStep s call, RemovalsSpent r.1 calls) (by simp [RemovalsSpent])

/-- Nothing is stored and nothing is marked. -/
def start : ServiceState := ⟨emptyDatabase true, hashMapCreate⟩

/-- The light is found, and its driver sets it up. -/
def foundLight : Request := .call (.deviceFound "light".toList true (some sampleDevice) false true)

/-- The light is paired, removed and paired again. -/
def pairedAgain : List Request :=
  [foundLight, .call (.removeDevice (some "light".toList) true), foundLight]

theorem not_dropped_iff_pairedAgain : ∃ s outs,
    run serviceStep start (pairedAgain.flatMap Request.calls) = some (s, outs) ∧
      outs = [.finalized true, .removal true, .finalized true] ∧ Outcome.dropped ∉ outs := by
  have houts : (run serviceStep start (pairedAgain.flatMap Request.calls)).map Prod.snd =
      some [.finalized true, .removal true, .finalized true] := by decide +kernel
  obtain ⟨⟨s, outs⟩, hrun, heq⟩ := Option.map_eq_some_iff.mp houts
  refine ⟨s, outs, hrun, heq, ?_⟩
  exact (not_dropped_iff start pairedAgain s outs rfl hrun).mpr (by decide +kernel)

/-- The light is put on the black list twice before it is found. -/
def blacklisted : List Request :=
  [foundLight, .processBlacklistedDevices (some "lamp, light,light ".toList) (fun _ => true),
    foundLight, foundLight]

/-- The first pairing afterwards is dropped, with no removal under way; the second is not. -/
theorem dropped_after_blacklist : start.markedForRemoval.items = [] ∧
    (run serviceStep start (blacklisted.flatMap Request.calls)).map Prod.snd =
      some [.finalized true, .removal true, .removal true, .removal true, .dropped,
        .finalized true] :=
  ⟨rfl, by decide +kernel⟩

end ZilkerSdk.Device.RemovalMarks

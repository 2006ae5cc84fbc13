import ZilkerSdk.Device.Database.Atomicity

/-!
# Removing a device that is being paired

Model of `deviceServiceDeviceFound`, `finalizeNewDevice` and `deviceServiceRemoveDevice` in
`services/device/core/src/deviceService.c` for one uuid, as the steps the code makes atomic:
a call of the database runs under the mutex of the database, an access to the map
`markedForRemoval` under its own.  No lock covers two of them.

A removal that does not find the device assumes that it is being paired and leaves a mark.
The pairing looks for the mark when the driver has set the device up, and adds the device to
the database afterwards.

What the drivers do to a device before it is added is an input, and so are the verdict on
a found device, the repair mode of the running discovery and the outcomes of the storage.
Events, and the write of the time zone to a device that is about to be added, are left out:
they do not change which devices are in the database.
-/

namespace ZilkerSdk.Device.PairingRemoval

open Types Lib Device.Database Option

/-! ## The uris of a new device -/

/-- `setUrisOnResources`; an id that is NULL is not checked for. -/
def setUrisOnResources (baseUri : CString) (resources : List IcDeviceResource) :
    Option (List IcDeviceResource) :=
  resources.mapM fun resource =>
    resource.id.map fun id => { resource with uri := some (baseUri ++ "/r/".toList ++ id) }

def getEndpointUri (deviceUuid endpointId : CString) : CString :=
  "/".toList ++ deviceUuid ++ "/ep/".toList ++ endpointId

/-- The body of the loop of `setUris`. -/
def setUrisOnEndpoint (uuid : CString) (endpoint : IcDeviceEndpoint) : Option IcDeviceEndpoint := do
  let id ← endpoint.id
  let uri := getEndpointUri uuid id
  let resources ← setUrisOnResources uri endpoint.resources
  return { endpoint with uri := some uri, resources := resources }

def setUris (device : IcDevice) : Option IcDevice := do
  let uuid ← device.uuid
  let uri := "/".toList ++ uuid
  let resources ← setUrisOnResources uri device.resources
  let endpoints ← device.endpoints.mapM (setUrisOnEndpoint uuid)
  return { device with uri := some uri, resources := resources, endpoints := endpoints }

/-! ## The two calls -/

/-- Where `deviceServiceDeviceFound` stands between its steps. -/
inductive FoundStage where
  | idle
  | configuring
  | configured (device : IcDevice)
  | finalizing (device : IcDevice)
  | returned (pairingSuccessful : Bool)
deriving DecidableEq

/-- Where `deviceServiceRemoveDevice` stands between its steps. -/
inductive RemoveStage where
  | idle
  | lookedUp (found : Bool)
  | returned (result : Bool)
deriving DecidableEq

/-- The shared state and the two calls. -/
structure PairingState where
  db : JsonDatabase
  markedForRemoval : IcHashMap Key Unit
  found : FoundStage
  remove : RemoveStage

/-- The steps of the two calls, with what they take from elsewhere. -/
inductive PairingOp where
  /-- the pairing begins: the found device is admitted, or it is black listed or unknown -/
  | deviceFound (admitted : Bool)
  /-- the driver has set the device up, or has failed to -/
  | configure (device : Option IcDevice)
  | checkMarked
  | finalizeNewDevice (inRepairMode saved : Bool)
  /-- the removal begins with its lookup -/
  | removeDevice
  | removeById (deleted : Bool)
  | markForRemoval
deriving DecidableEq

variable (uuid : CString)

/-- The last step of the pairing: `finalizeNewDevice`. -/
def finalizeNewDevice (db : JsonDatabase) (device : IcDevice) (inRepairMode saved : Bool) :
    Option (JsonDatabase × Bool) := do
  let device ← setUris device
  -- what is found in the repair mode is not added
  if inRepairMode then some (db, true)
  else jsonDatabaseAddDevice db (some device) saved

/-- One step; a removal starts only after the pairing has begun. -/
def pairingStep (s : PairingState) : PairingOp → Option (PairingState × Unit)
  | .deviceFound admitted =>
    match s.found with
    | .idle => some ({ s with found := if admitted then .configuring else .returned false }, ())
    | _ => none
  | .configure device =>
    match s.found, device with
    | .configuring, none => some ({ s with found := .returned false }, ())
    | .configuring, some device =>
      -- `createDevice` has given it the uuid that was found
      if device.uuid = some uuid then some ({ s with found := .configured device }, ()) else none
    | _, _ => none
  | .checkMarked =>
    match s.found with
    | .configured device =>
      -- `hashMapDelete` is the check: the mark is taken out by asking for it
      let (markedForRemoval, marked) := hashMapDelete s.markedForRemoval (stringKey uuid)
      let found : FoundStage := if marked then .returned false else .finalizing device
      some ({ s with markedForRemoval := markedForRemoval, found := found }, ())
    | _ => none
  | .finalizeNewDevice inRepairMode saved =>
    match s.found with
    | .finalizing device => do
      let (db, result) ← finalizeNewDevice s.db device inRepairMode saved
      some ({ s with db := db, found := .returned result }, ())
    | _ => none
  | .removeDevice =>
    match s.remove, s.found with
    | _, .idle => none
    | .idle, _ => do
      let device ← jsonDatabaseGetDeviceById s.db (some uuid)
      some ({ s with remove := .lookedUp device.isSome }, ())
    | _, _ => none
  | .removeById deleted =>
    match s.remove with
    | .lookedUp true => do
      let (db, result) ← jsonDatabaseRemoveDeviceById s.db (some uuid) deleted
      some ({ s with db := db, remove := .returned result }, ())
    | _ => none
  | .markForRemoval =>
    match s.remove with
    | .lookedUp false =>
      let markedForRemoval := (hashMapPut s.markedForRemoval (stringKey uuid) ()).1
      some ({ s with markedForRemoval := markedForRemoval, remove := .returned true }, ())
    | _ => none

/-! ## What a step does to the device in the database -/

/-- The entry of the device in the database. -/
def stored (s : PairingState) : Option DeviceCacheEntry := hashMapGet s.db.devices (stringKey uuid)

/-- The step adds the device: the pairing is finalised outside the repair mode, and the
database accepts the device. -/
def addsDevice (s : PairingState) : PairingOp → Bool
  | .finalizeNewDevice false saved =>
    match s.found with
    | .finalizing device => (finalizeNewDevice s.db device false saved).any Prod.snd
    | _ => false
  | _ => false

/-- The device that the pairing works on has the uuid in question. -/
def Named (s : PairingState) : Prop :=
  ∀ device, s.found = .configured device ∨ s.found = .finalizing device → device.uuid = some uuid

/-- The kinds of steps. -/
inductive PairingEffect (s s' : PairingState) (op : PairingOp) : Prop where
  | pairs (hadds : addsDevice s op = false) (hpending : ∀ ok, s.found ≠ .returned ok)
      (hnamed : Named uuid s') (hstored : stored uuid s' = stored uuid s)
      (hremove : s'.remove = s.remove)
  | adds (hadds : addsDevice s op = true) (hfree : stored uuid s = none)
      (hstored : stored uuid s' ≠ none) (hfound : s'.found = .returned true)
      (hremove : s'.remove = s.remove)
  | looksUp (hadds : addsDevice s op = false) (hidle : s.remove = .idle)
      (hstored : stored uuid s' = stored uuid s) (hfound : s'.found = s.found)
      (hremove : s'.remove = .lookedUp (stored uuid s).isSome)
  | removes (hadds : addsDevice s op = false) (hpresent : s.remove = .lookedUp true)
      (hstored : stored uuid s' = none) (hfound : s'.found = s.found)
      (hremove : s'.remove = .returned true)
  | keeps (hadds : addsDevice s op = false) (hpresent : s.remove = .lookedUp true)
      (hstored : stored uuid s' = stored uuid s) (hfound : s'.found = s.found)
      (hremove : s'.remove = .returned false)
  | marks (hadds : addsDevice s op = false) (habsent : s.remove = .lookedUp false)
      (hstored : stored uuid s' = stored uuid s) (hfound : s'.found = s.found)
      (hremove : s'.remove = .returned true)

variable {uuid} {s s' : PairingState} {op : PairingOp} {o : Unit}

theorem setUris_uuid {device device' : IcDevice} (h : setUris device = some device') :
    device'.uuid = device.uuid := by
  simp only [setUris, bind_eq_bind, bind_eq_some_iff] at h
  obtain ⟨_, -, _, -, _, -, heq⟩ := h
  rw [← some.inj heq]

variable {db db' : JsonDatabase}

theorem finalizeNewDevice_cases {device : IcDevice} {inRepairMode saved result : Bool}
    (huuid : device.uuid = some uuid)
    (h : finalizeNewDevice db device inRepairMode saved = some (db', result)) :
    (inRepairMode = false ∧ result = true ∧ hashMapGet db.devices (stringKey uuid) = none ∧
        hashMapGet db'.devices (stringKey uuid) ≠ none) ∨
      ((inRepairMode = true ∨ result = false) ∧
        hashMapGet db'.devices (stringKey uuid) = hashMapGet db.devices (stringKey uuid)) := by
  obtain ⟨device', hset, hadd⟩ := bind_eq_some_iff.mp h
  have huuid' : device'.uuid = some uuid := (setUris_uuid hset).trans huuid
  cases inRepairMode with
  | true =>
    cases hadd
    exact .inr ⟨.inl rfl, rfl⟩
  | false =>
    replace hadd : jsonDatabaseAddDevice db (some device') saved = some (db', result) := hadd
    rcases jsonDatabaseAddDevice_cases hadd with ⟨-, -, hnull⟩ | ⟨d, uuid', hd, hd', hcases⟩
    · rw [bind_some, huuid'] at hnull
      cases hnull
    · cases hd
      cases hd'.symm.trans huuid'
      -- the database accepts a device only where there was none
      rcases hcases with ⟨rfl, hacc, -⟩ | ⟨rfl, hrej⟩
      · refine .inl ⟨rfl, rfl, hacc.free, ?_⟩
        rw [hacc.devices, hashMapGet_put hacc.free, if_pos rfl]
        exact some_ne_none _
      · exact .inr ⟨.inr rfl, hashMapGet_congr hrej.devices _⟩

theorem jsonDatabaseGetDeviceById_isSome {device : Option IcDevice}
    (h : jsonDatabaseGetDeviceById db (some uuid) = some device) :
    device.isSome = (hashMapGet db.devices (stringKey uuid)).isSome := by
  cases hget : hashMapGet db.devices (stringKey uuid) with
  | none =>
    obtain rfl : none = device := by simpa [jsonDatabaseGetDeviceById, answer, hget] using h
    rfl
  | some entry =>
    by_cases hdestroyed : entry.destroyedEndpoints = []
    · obtain rfl : some entry.device = device := by
        simpa [jsonDatabaseGetDeviceById, answer, hget, cloneDevice, hdestroyed] using h
      rfl
    · simp [jsonDatabaseGetDeviceById, answer, hget, cloneDevice, hdestroyed] at h

/-- Every step is of one of the kinds. -/
theorem pairingStep_effect (hnamed : Named uuid s) (h : pairingStep uuid s op = some (s', o)) :
    PairingEffect uuid s s' op := by
  revert h
  fun_cases pairingStep uuid s op <;> intro h
  case case1 admitted hfound =>
    cases h
    refine .pairs rfl (by simp [hfound]) ?_ rfl rfl
    cases admitted <;> simp [Named]
  case case3 hfound =>
    cases h
    exact .pairs rfl (by simp [hfound]) (by simp [Named]) rfl rfl
  case case4 device hfound huuid =>
    cases h
    refine .pairs rfl (by simp [hfound]) ?_ rfl rfl
    intro device' hdevice
    obtain rfl : device = device' := by simpa using hdevice
    exact huuid
  case case7 device hfound _ marked _ found =>
    cases h
    refine .pairs rfl (by simp [hfound]) ?_ rfl rfl
    intro device' hdevice
    cases marked with
    | true => simp [found] at hdevice
    | false =>
      -- a device without a mark goes on
      obtain rfl : device = device' := by simpa [found] using hdevice
      exact hnamed device (.inl hfound)
  case case9 inRepairMode saved device hfound =>
    obtain ⟨⟨db, result⟩, hfinal, hs'⟩ := bind_eq_some_iff.mp h
    cases hs'
    rcases finalizeNewDevice_cases (hnamed device (.inr hfound)) hfinal with
      ⟨rfl, rfl, hfree, hstored⟩ | ⟨hnot, hstored⟩
    · exact .adds (by simp [addsDevice, hfound, hfinal]) hfree hstored rfl rfl
    · refine .pairs ?_ (by simp [hfound]) (by simp [Named]) hstored rfl
      -- in the repair mode nothing is added, and a refused device is not either
      cases inRepairMode with
      | true => rfl
      | false =>
        obtain rfl : result = false := hnot.resolve_left Bool.false_ne_true
        simp [addsDevice, hfound, hfinal]
  case case12 hidle _ =>
    obtain ⟨device, hget, hs'⟩ := bind_eq_some_iff.mp h
    cases hs'
    refine .looksUp rfl hidle rfl rfl ?_
    exact congrArg RemoveStage.lookedUp (jsonDatabaseGetDeviceById_isSome hget)
  case case14 hpresent =>
    obtain ⟨⟨db, result⟩, hremoved, hs'⟩ := bind_eq_some_iff.mp h
    cases hs'
    rcases jsonDatabaseRemoveDeviceById_cases hremoved with
      ⟨rfl, rfl⟩ | ⟨uuid', _, huuid, rfl, -, hdb, -⟩
    · exact .keeps rfl hpresent rfl rfl rfl
    · cases huuid
      refine .removes rfl hpresent ?_ rfl rfl
      show hashMapGet db.devices (stringKey uuid) = none
      rw [hdb, hashMapGet_delete, if_pos rfl]
  case case16 habsent _ =>
    cases h
    exact .marks rfl habsent rfl rfl rfl
  all_goals cases h

/-! ## Runs -/

/-- What holds in every state: a device that the removal has found is still there. -/
structure PairingInv (uuid : CString) (s : PairingState) : Prop where
  named : Named uuid s
  present : s.remove = .lookedUp true → stored uuid s ≠ none

theorem pairingStep_pairingInv (hinv : PairingInv uuid s)
    (h : pairingStep uuid s op = some (s', o)) : PairingInv uuid s' := by
  have hsame : s'.found = s.found → Named uuid s' := by
    intro hfound device hdevice
    rw [hfound] at hdevice
    exact hinv.named device hdevice
  cases pairingStep_effect hinv.named h with
  | pairs _ _ hnamed hstored hremove =>
    refine ⟨hnamed, fun hpresent => ?_⟩
    rw [hstored]
    exact hinv.present (hremove ▸ hpresent)
  -- the device is there now, whatever the removal has seen
  | adds _ _ hstored hfound _ =>
    refine ⟨?_, fun _ => hstored⟩
    intro device hdevice
    rw [hfound] at hdevice
    simp at hdevice
  | looksUp _ _ hstored hfound hremove =>
    refine ⟨hsame hfound, fun hpresent => ?_⟩
    rw [hremove, RemoveStage.lookedUp.injEq] at hpresent
    rw [hstored]
    exact isSome_iff_ne_none.mp hpresent
  | removes _ _ _ hfound hremove | keeps _ _ _ hfound hremove | marks _ _ _ hfound hremove =>
    exact ⟨hsame hfound, by simp [hremove]⟩

/-- A step that adds the device is made before the removal looks for it. -/
def AddsInTime (s : PairingState) (op : PairingOp) : Prop :=
  addsDevice s op = true → s.remove = .idle

instance (s : PairingState) (op : PairingOp) : Decidable (AddsInTime s op) :=
  inferInstanceAs (Decidable (_ → _))

/-- A removal that has not found the device, or has returned true, is right about it. -/
structure Gone (uuid : CString) (s : PairingState) : Prop extends PairingInv uuid s where
  absent : s.remove = .lookedUp false ∨ s.remove = .returned true → stored uuid s = none

theorem pairingStep_gone (hgone : Gone uuid s) (hop : AddsInTime s op)
    (h : pairingStep uuid s op = some (s', o)) : Gone uuid s' := by
  refine ⟨pairingStep_pairingInv hgone.toPairingInv h, fun hremoved => ?_⟩
  cases pairingStep_effect hgone.named h with
  | pairs _ _ _ hstored hremove =>
    rw [hremove] at hremoved
    rw [hstored]
    exact hgone.absent hremoved
  | adds hadds _ _ _ hremove =>
    -- an addition in time comes before the removal
    rw [hremove, hop hadds] at hremoved
    simp at hremoved
  | looksUp _ _ hstored _ hremove =>
    rw [hremove] at hremoved
    rw [hstored]
    simpa using hremoved
  | removes _ _ hstored _ _ => exact hstored
  | keeps _ _ _ _ hremove =>
    rw [hremove] at hremoved
    simp at hremoved
  | marks _ habsent hstored _ _ =>
    rw [hstored]
    exact hgone.absent (.inl habsent)

/-- The device has been added, and neither call will take it out again. -/
structure Stays (uuid : CString) (s : PairingState) : Prop extends PairingInv uuid s where
  added : stored uuid s ≠ none
  paired : ∃ ok, s.found = .returned ok
  missed : s.remove = .lookedUp false ∨ ∃ ok, s.remove = .returned ok

/-- A device that is added after the removal has looked for it stays: the removal either
did not find it or has already taken out an earlier one. -/
theorem stays_of_late_add (hinv : PairingInv uuid s) (hop : ¬ AddsInTime s op)
    (h : pairingStep uuid s op = some (s', o)) : Stays uuid s' := by
  obtain ⟨hadds, hstarted⟩ := Classical.not_imp.mp hop
  cases pairingStep_effect hinv.named h with
  | adds _ hfree hstored hfound hremove =>
    refine ⟨pairingStep_pairingInv hinv h, hstored, ⟨true, hfound⟩, ?_⟩
    rw [hremove]
    cases hstage : s.remove with
    | idle => exact absurd hstage hstarted
    | lookedUp found =>
      cases found with
      -- the removal has found the device, so there was nothing to add
      | true => exact absurd hfree (hinv.present hstage)
      | false => exact .inl rfl
    | returned ok => exact .inr ⟨ok, rfl⟩
  | pairs hnot | looksUp hnot | removes hnot | keeps hnot | marks hnot =>
    rw [hadds] at hnot
    cases hnot

theorem pairingStep_stays (hstays : Stays uuid s) (h : pairingStep uuid s op = some (s', o)) :
    Stays uuid s' := by
  have hinv' := pairingStep_pairingInv hstays.toPairingInv h
  obtain ⟨hinv, hstored, ⟨ok, hpaired⟩, hmissed⟩ := hstays
  cases pairingStep_effect hinv.named h with
  -- the pairing is over, so only the mark can still be left
  | pairs _ hpending => exact absurd hpaired (hpending ok)
  | adds _ hfree => exact absurd hfree hstored
  | looksUp _ hidle =>
    rw [hidle] at hmissed
    simp at hmissed
  | removes _ hpresent | keeps _ hpresent =>
    rw [hpresent] at hmissed
    simp at hmissed
  | marks _ _ hsame hfound hremove =>
    exact ⟨hinv', by rwa [hsame], ⟨ok, hfound.trans hpaired⟩, .inr ⟨true, hremove⟩⟩

/-- Neither call has begun. -/
structure Idle (s : PairingState) : Prop where
  found : s.found = .idle
  remove : s.remove = .idle

theorem Idle.gone (h : Idle s) : Gone uuid s where
  named := by simp [Named, h.found]
  present := by simp [h.remove]
  absent := by simp [h.remove]

/-- Once the removal has returned true, the device is not in the database exactly when no
step has added it after the removal had looked for it. -/
theorem removal_wins_iff (s : PairingState) (ops : List PairingOp) (s' : PairingState)
    (outs : List Unit) (hidle : Idle s)
    (hrun : run (pairingStep uuid) s ops = some (s', outs))
    (hremoved : s'.remove = .returned true) :
    stored uuid s' = none ↔ Guarded (pairingStep uuid) AddsInTime s ops := by
  constructor
  -- a late addition is for good
  · intro habsent
    by_contra hlate
    have hstays : Stays uuid s' := run_of_not_guarded
      (fun _ _ _ _ hinv _ h => pairingStep_pairingInv hinv h)
      (fun _ _ _ _ hinv hop h => stays_of_late_add hinv hop h)
      (fun _ _ _ _ hbad h => pairingStep_stays hbad h)
      hidle.gone.toPairingInv hlate hrun
    exact hstays.added habsent
  · intro hguarded
    have hgone : Gone uuid s' := run_invariant
      (fun _ _ _ _ hgone hop h => pairingStep_gone hgone hop h) hidle.gone hguarded hrun
    exact hgone.absent (.inr hremoved)

/-! ## Two runs -/

/-- Nothing is stored, nothing is marked and nothing runs. -/
def start : PairingState := ⟨emptyDatabase true, hashMapCreate, .idle, .idle⟩

/-- The removal comes while the driver sets the device up; the pairing sees the mark. -/
def earlyRemoval : List PairingOp :=
  [.deviceFound true, .removeDevice, .markForRemoval, .configure (some sampleDevice), .checkMarked]

theorem removal_wins_iff_earlyRemoval : ∃ s outs,
    run (pairingStep "light".toList) start earlyRemoval = some (s, outs) ∧
      s.found = .returned false ∧ s.remove = .returned true ∧
      stored "light".toList s = none := by
  refine ⟨_, _, rfl, by decide +kernel, rfl, ?_⟩
  exact (removal_wins_iff start earlyRemoval _ _ ⟨rfl, rfl⟩ rfl rfl).mpr (by decide +kernel)

/-- The removal comes after the pairing has looked for a mark and before it adds the device. -/
def lateRemoval : List PairingOp :=
  [.deviceFound true, .configure (some sampleDevice), .checkMarked, .removeDevice,
    .finalizeNewDevice false true, .markForRemoval]

/-- Both calls return true, and the device is in the database. -/
theorem removal_loses : Idle start ∧ ∃ s outs,
    run (pairingStep "light".toList) start lateRemoval = some (s, outs) ∧
      s.found = .returned true ∧ s.remove = .returned true ∧
      stored "light".toList s ≠ none :=
  ⟨⟨rfl, rfl⟩, _, _, rfl, by decide +kernel, by decide +kernel, by decide +kernel⟩

end ZilkerSdk.Device.PairingRemoval

import ZilkerSdk.Device.Database.Consistency

/-!
# Failed additions and what lookups see of them

The read functions of `jsonDatabase.c` as one answer function over queries, and
the question when a call of `jsonDatabaseAddDevice` or `jsonDatabaseAddEndpoint`
that returns false is invisible to all of them.

A rejected device is invisible exactly when none of its uris is in the index,
because the clean-up goes by uri.  A rejected endpoint is invisible exactly when
its device was not found: otherwise it has been appended to the endpoint list
before anything could fail.
-/

namespace ZilkerSdk.Device.Database

open Types Lib

/-! ## Lookups -/

/-- The read functions of the database with their arguments. -/
inductive Query where
  | devices
  | devicesByEndpointProfile (profileId : Option CString)
  | devicesByDeviceClass (deviceClass : Option CString)
  | devicesByDeviceDriver (driverName : Option CString)
  | deviceById (uuid : Option CString)
  | deviceByUri (uri : Option CString)
  | isDeviceKnown (uuid : Option CString)
  | endpointsByProfile (profileId : Option CString)
  | endpointById (deviceUuid endpointId : Option CString)
  | endpointByUri (uri : Option CString)
  | resourceByUri (uri : Option CString)
  | metadataByUri (uri : Option CString)

/-- What a read function returns. -/
inductive Answer where
  | devices (ds : List IcDevice)
  | device (d : Option IcDevice)
  | known (b : Bool)
  | endpoints (es : List IcDeviceEndpoint)
  | endpoint (e : Option IcDeviceEndpoint)
  | resource (r : Option IcDeviceResource)
  | metadata (m : Option IcDeviceMetadata)
deriving DecidableEq

/-- `deviceClone` of a stored device, which visits all its endpoints. -/
def cloneDevice (entry : DeviceCacheEntry) : Option IcDevice :=
  if entry.destroyedEndpoints ≠ [] then none else some entry.device

/-- A loop over the endpoints of an entry that collects those with property `p`. -/
def filterEndpoints (destroyed : List Nat) (p : IcDeviceEndpoint → Bool) :
    List (IcDeviceEndpoint × Nat) → Option (List IcDeviceEndpoint)
  | [] => some []
  | (e, i) :: rest =>
    -- reading a destroyed endpoint is undefined
    if i ∈ destroyed then none
    else do
      let es ← filterEndpoints destroyed p rest
      some (if p e then e :: es else es)

/-- A loop over the endpoints of an entry that stops at the first with property `p`. -/
def firstEndpoint (destroyed : List Nat) (p : IcDeviceEndpoint → Bool) :
    List (IcDeviceEndpoint × Nat) → Option (Option IcDeviceEndpoint)
  | [] => some none
  | (e, i) :: rest =>
    -- endpoints behind the match are not read
    if i ∈ destroyed then none
    else if p e then some (some e)
    else firstEndpoint destroyed p rest

/-- The loops over all devices that collect those with property `p`; finding out
about `p` may itself visit endpoints. -/
def collectDevices (p : DeviceCacheEntry → Option Bool) :
    List (Key × DeviceCacheEntry) → Option (List IcDevice)
  | [] => some []
  | (_, entry) :: rest => do
    let hit ← p entry
    if hit then
      let d ← cloneDevice entry
      let ds ← collectDevices p rest
      some (d :: ds)
    else collectDevices p rest

/-- `jsonDatabaseGetEndpointsByProfile`. -/
def collectEndpoints (profileId : CString) :
    List (Key × DeviceCacheEntry) → Option (List IcDeviceEndpoint)
  | [] => some []
  | (_, entry) :: rest => do
    let es ← filterEndpoints entry.destroyedEndpoints (fun e => e.profile = some profileId)
      entry.device.endpoints.zipIdx
    let es' ← collectEndpoints profileId rest
    some (es ++ es')

/-- `endpointClone` through a locator; a `NULL` pointer gives `NULL`. -/
def cloneEndpoint (db : JsonDatabase) (k : Key) (endpoint : Option Nat) :
    Option (Option IcDeviceEndpoint) :=
  match endpoint with
  | none => some none
  | some i => (derefEndpoint db k i).map some

/-- The read functions; `none` is undefined behaviour. -/
def answer (db : JsonDatabase) : Query → Option Answer
  | .devices => (collectDevices (fun _ => some true) db.devices.items).map .devices
  | .devicesByEndpointProfile none => some (.devices [])
  | .devicesByEndpointProfile (some profileId) =>
    (collectDevices (fun entry => (firstEndpoint entry.destroyedEndpoints
      (fun e => e.profile = some profileId) entry.device.endpoints.zipIdx).map Option.isSome)
      db.devices.items).map .devices
  | .devicesByDeviceClass none => some (.devices [])
  | .devicesByDeviceClass (some deviceClass) =>
    (collectDevices (fun entry => some (entry.device.deviceClass = some deviceClass))
      db.devices.items).map .devices
  | .devicesByDeviceDriver none => some (.devices [])
  | .devicesByDeviceDriver (some driverName) =>
    (collectDevices (fun entry => some (entry.device.managingDeviceDriver = some driverName))
      db.devices.items).map .devices
  | .deviceById none => some (.device none)
  | .deviceById (some uuid) =>
    match hashMapGet db.devices (stringKey uuid) with
    | none => some (.device none)
    | some entry => (cloneDevice entry).map fun d => .device (some d)
  | .deviceByUri none => some (.device none)
  | .deviceByUri (some uri) =>
    match hashMapGet db.resourcesByUri (stringKey uri) with
    | none => some (.device none)
    | some l => do
      let entry ← hashMapGet db.devices l.entry
      let d ← cloneDevice entry
      some (.device (some d))
  | .isDeviceKnown none => some (.known false)
  | .isDeviceKnown (some uuid) => some (.known (hashMapContains db.devices (stringKey uuid)))
  | .endpointsByProfile none => some (.endpoints [])
  | .endpointsByProfile (some profileId) =>
    (collectEndpoints profileId db.devices.items).map .endpoints
  | .endpointById _ none => some (.endpoint none)
  -- the uuid is not checked for `NULL`
  | .endpointById none (some _) => none
  | .endpointById (some uuid) (some endpointId) =>
    match hashMapGet db.devices (stringKey uuid) with
    | none => some (.endpoint none)
    | some entry => (firstEndpoint entry.destroyedEndpoints (fun e => e.id = some endpointId)
        entry.device.endpoints.zipIdx).map .endpoint
  | .endpointByUri none => some (.endpoint none)
  | .endpointByUri (some uri) =>
    match hashMapGet db.resourcesByUri (stringKey uri) with
    | some (.endpoint k i) => (cloneEndpoint db k (some i)).map .endpoint
    -- the uri of a resource or of metadata leads to its endpoint
    | some (.resource k endpoint _) => (cloneEndpoint db k endpoint).map .endpoint
    | some (.metadata k endpoint _) => (cloneEndpoint db k endpoint).map .endpoint
    | _ => some (.endpoint none)
  | .resourceByUri none => some (.resource none)
  | .resourceByUri (some uri) =>
    match hashMapGet db.resourcesByUri (stringKey uri) with
    | some (.resource k endpoint j) =>
      (derefResource db k endpoint j).map fun r => .resource (some r)
    | _ => some (.resource none)
  | .metadataByUri none => some (.metadata none)
  | .metadataByUri (some uri) =>
    match hashMapGet db.resourcesByUri (stringKey uri) with
    | some (.metadata k endpoint j) =>
      (derefMetadata db k endpoint j).map fun m => .metadata (some m)
    | _ => some (.metadata none)

def jsonDatabaseGetResourceByUri (db : JsonDatabase) (uri : Option CString) :
    Option (Option IcDeviceResource) :=
  match answer db (.resourceByUri uri) with
  | some (.resource resource) => some resource
  | _ => none

def jsonDatabaseGetEndpointByUri (db : JsonDatabase) (uri : Option CString) :
    Option (Option IcDeviceEndpoint) :=
  match answer db (.endpointByUri uri) with
  | some (.endpoint endpoint) => some endpoint
  | _ => none

def jsonDatabaseGetDeviceById (db : JsonDatabase) (uuid : Option CString) :
    Option (Option IcDevice) :=
  match answer db (.deviceById uuid) with
  | some (.device device) => some device
  | _ => none

variable {db db' : JsonDatabase}

/-! ## When lookups agree -/

/-- Lookups see the items of the two maps and nothing else of the state. -/
theorem answer_congr (hdevices : db'.devices.items = db.devices.items)
    (hindex : db'.resourcesByUri.items = db.resourcesByUri.items) (q : Query) :
    answer db' q = answer db q := by
  have hget : hashMapGet db'.devices = hashMapGet db.devices :=
    funext fun k => hashMapGet_congr hdevices k
  have hloc : hashMapGet db'.resourcesByUri = hashMapGet db.resourcesByUri :=
    funext fun k => hashMapGet_congr hindex k
  have hderef : derefEndpoint db' = derefEndpoint db := by
    funext k i
    simp only [derefEndpoint, hget]
  have hres : derefResource db' = derefResource db := by
    funext k endpoint j
    cases endpoint <;> simp only [derefResource, hget, hderef]
  have hmeta : derefMetadata db' = derefMetadata db := by
    funext k endpoint j
    cases endpoint <;> simp only [derefMetadata, hget, hderef]
  have hclone : cloneEndpoint db' = cloneEndpoint db := by
    funext k endpoint
    cases endpoint <;> simp only [cloneEndpoint, hderef]
  have hknown : hashMapContains db'.devices = hashMapContains db.devices := by
    funext k
    rw [hashMapContains_eq, hashMapContains_eq, hget]
  -- every read goes through one of these
  unfold answer
  rw [hget, hloc, hres, hmeta, hclone, hknown, hdevices]

variable {uuid : CString} {entry : DeviceCacheEntry}

/-- A device that is found by its uuid can be read as long as none of its
endpoints has been destroyed. -/
theorem answer_deviceById (hentry : hashMapGet db.devices (stringKey uuid) = some entry)
    (halive : entry.destroyedEndpoints = []) :
    answer db (.deviceById (some uuid)) = some (.device (some entry.device)) := by
  simp [answer, hentry, cloneDevice, halive]

/-! ## The exact condition -/

/-- The call adds a device or an endpoint. -/
def Op.isAddition : Op → Prop
  | .addDevice _ _ => True
  | .addEndpoint _ _ => True
  | _ => False

/-- If the addition fails, it fails without a trace: a device has no uri that is
in the index, an endpoint has no device to be appended to. -/
def FailsCleanly (db : JsonDatabase) : Op → Prop
  | .addDevice device _ => ∀ d ∈ device, d.uuid ≠ none → KeysFree db d
  | .addEndpoint endpoint _ => ∀ e ∈ endpoint, ∀ uuid ∈ e.deviceUuid, e.id ≠ none →
      hashMapGet db.devices (stringKey uuid) = none
  | _ => True

theorem IndexInv.of_consistent (h : IndexConsistent db) (halive : NoneDestroyed db) :
    IndexInv db where
  named := h.named
  exact key l := by
    constructor
    · exact h.sound key l
    · rintro ⟨uri, hu, rfl⟩
      exact h.indexed uri l hu
  alive := halive

/-- A rejected device one of whose keys is in the index hides an object. -/
theorem rejected_visible (h : IndexInv db) {d : IcDevice} (hrej : Rejected db db' d) {key : Key}
    (hkey : key ∈ deviceKeys d) {l : Locator}
    (hget : hashMapGet db.resourcesByUri key = some l) : ∃ q, answer db' q ≠ answer db q := by
  -- the key is the uri of a live object, whose entry the clean-up has deleted
  obtain ⟨uri, hholds, rfl⟩ := (h.exact key l).mp hget
  obtain ⟨entry, hentry, -⟩ := hholds
  have hgone : hashMapGet db'.resourcesByUri (stringKey uri) = none := by
    cases hget' : hashMapGet db'.resourcesByUri (stringKey uri) with
    | none => rfl
    | some l' => exact absurd hkey ((mem_index_filter hrej.index _ _).mp hget').2
  refine ⟨.deviceByUri (some uri), ?_⟩
  simp [answer, hget, hgone, hentry, cloneDevice, h.alive _ _ hentry]

/-- The number of endpoints of a device that was read. -/
def endpointsRead : Option Answer → Nat
  | some (.device (some d)) => d.endpoints.length
  | _ => 0

theorem appended_visible (h : IndexInv db) {e : IcDeviceEndpoint} {dirty : Bool}
    (hrep : Replaced db db' (stringKey uuid) entry (withNewEndpoint e entry.device) dirty) :
    answer db' (.deviceById (some uuid)) ≠ answer db (.deviceById (some uuid)) := by
  have halive := h.alive _ _ hrep.found
  have hentry' : hashMapGet db'.devices (stringKey uuid) =
      some { entry with device := withNewEndpoint e entry.device, dirty := dirty } := by
    rw [hrep.lookup, if_pos rfl]
  rw [answer_deviceById hrep.found halive, answer_deviceById hentry' halive]
  intro heq
  -- the list of endpoints has become longer
  have hlen := congrArg endpointsRead heq
  simp [endpointsRead, withNewEndpoint] at hlen

/-- A failed addition is invisible to every lookup exactly when it fails cleanly. -/
theorem failed_add_invisible_iff (db : JsonDatabase) (op : Op) (db' : JsonDatabase)
    (h : IndexConsistent db) (halive : NoneDestroyed db) (hop : op.isAddition)
    (hstep : step db op = some (db', false)) :
    (∀ q, answer db' q = answer db q) ↔ FailsCleanly db op := by
  have hinv := IndexInv.of_consistent h halive
  cases op with
  | addDevice device saved =>
    rcases jsonDatabaseAddDevice_cases hstep with
      ⟨-, rfl, hnull⟩ | ⟨d, uuid, rfl, huuid, ⟨hok, -⟩ | ⟨-, hrej⟩⟩
    · refine ⟨fun _ d hd huuid => ?_, fun _ _ => rfl⟩
      obtain rfl : device = some d := hd
      exact absurd hnull huuid
    · cases hok
    · constructor
      · intro hsame d' hd' _ key hkey
        obtain rfl : d = d' := Option.some.inj hd'
        -- a key of the refused device that was in use loses its entry
        by_contra hne
        obtain ⟨l, hget⟩ := Option.ne_none_iff_exists'.mp hne
        obtain ⟨q, hq⟩ := rejected_visible hinv hrej hkey hget
        exact hq (hsame q)
      · intro hclean q
        have hfree : KeysFree db d := hclean d rfl (by simp [huuid])
        exact answer_congr hrej.devices (hrej.index.trans (filter_eq_self_of_keysFree hfree)) q
  | addEndpoint endpoint saved =>
    rcases jsonDatabaseAddEndpoint_cases hstep with
      ⟨-, rfl, habsent⟩ | ⟨e, uuid, entry, rfl, huuid, hid, hentry, hcases⟩
    · exact ⟨fun _ e he uuid huuid hid => habsent e uuid he huuid hid, fun _ _ => rfl⟩
    · refine ⟨fun hsame => ?_, fun hclean => ?_⟩
      · -- the device was found, so the endpoint is in its list, alive or destroyed
        exfalso
        rcases hcases with ⟨-, -, hrep, -⟩ | ⟨-, entry', hentry', hdestroyed, -⟩
        · exact appended_visible hinv hrep (hsame _)
        · have hread := hsame (.deviceById (some uuid))
          rw [answer_deviceById hentry (halive _ _ hentry)] at hread
          simp [answer, hentry', cloneDevice, hdestroyed] at hread
      · rw [hclean e rfl uuid huuid hid] at hentry
        cases hentry
  | _ => exact hop.elim

/-- The database that holds the sample device. -/
def sampleDatabase : JsonDatabase :=
  ((step (emptyDatabase true) (.addDevice (some sampleDevice) true)).map Prod.fst).getD
    (emptyDatabase true)

theorem sampleDatabase_indexInv : IndexInv sampleDatabase :=
  step_indexInv (emptyDatabase true) (.addDevice (some sampleDevice) true) sampleDatabase true
    (emptyDatabase_indexInv true) (by decide +kernel) rfl

/-- A second device with the uuid of the first, but with a uri of its own. -/
def sameUuid : Op :=
  .addDevice (some { sampleDevice with uri := some "/lamp".toList, endpoints := [] }) true

theorem failed_add_invisible_sameUuid : ∃ db',
    step sampleDatabase sameUuid = some (db', false) ∧
      ∀ q, answer db' q = answer sampleDatabase q := by
  refine ⟨_, rfl, (failed_add_invisible_iff sampleDatabase sameUuid _
    sampleDatabase_indexInv.consistent sampleDatabase_indexInv.alive trivial rfl).mpr ?_⟩
  intro d hd _
  cases hd
  decide +kernel

/-- Adding the stored device again is refused and makes it unreachable by its
uri; adding an endpoint whose save fails is refused and leaves the endpoint. -/
theorem failed_add_visible :
    IndexConsistent sampleDatabase ∧ NoneDestroyed sampleDatabase ∧
    (∃ db', step sampleDatabase (.addDevice (some sampleDevice) true) = some (db', false) ∧
      answer sampleDatabase (.deviceByUri (some "/light".toList)) =
        some (.device (some sampleDevice)) ∧
      answer db' (.deviceByUri (some "/light".toList)) = some (.device none)) ∧
    ∃ db', step sampleDatabase (.addEndpoint (some { sampleEndpoint with
        id := some ['2'], uri := some "/light/ep/2".toList, resources := [] }) false) =
        some (db', false) ∧
      answer sampleDatabase (.endpointById (some "light".toList) (some ['2'])) =
        some (.endpoint none) ∧
      answer db' (.endpointById (some "light".toList) (some ['2'])) ≠ some (.endpoint none) :=
  ⟨sampleDatabase_indexInv.consistent, sampleDatabase_indexInv.alive,
    ⟨_, rfl, by decide +kernel, by decide +kernel⟩, ⟨_, rfl, by decide +kernel, by decide +kernel⟩⟩

end ZilkerSdk.Device.Database

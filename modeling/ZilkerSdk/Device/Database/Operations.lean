import ZilkerSdk.Device.Database.Index

/-!
# The operations of the device database

Model of the public functions of `database/jsonDatabase.c` that change the
database.  Each call runs with the mutex `mtx` held from start to end, so one
call is one step; the outcome of the `storageSave` or `storageDelete` made in it
is an argument.

A function returns `none` where the source dereferences `NULL` or memory that
has been freed.  The only objects that are freed while still linked are the
endpoints destroyed by a failing `jsonDatabaseAddEndpoint`; an entry remembers
their positions.  The index entries made before that failure keep their keys
here, although the source has freed the strings.

The lists of a device are not `NULL` and hold fewer than 65536 objects, none of
them `NULL`: the iterator of the source skips a list whose 16-bit size is zero.
-/

namespace ZilkerSdk.Device.Database

open Types Lib

/-! ## State -/

/-- `DeviceCacheEntry`.  `destroyedEndpoints` are the positions in
`device->endpoints` whose object has been freed. -/
structure DeviceCacheEntry where
  device : IcDevice
  dirty : Bool
  destroyedEndpoints : List Nat
deriving DecidableEq, Repr

/-- A file of the storage namespace.  The JSON text of a device is represented
by the device it was printed from. -/
inductive StoredImage where
  | device (d : IcDevice)
  | systemProperties (props : List (CString × CString))
deriving DecidableEq, Repr

/-- The files of the namespace `devicedb` by key. -/
abbrev Storage := IcHashMap CString StoredImage

/-- The static state of `jsonDatabase.c` and the files behind it. -/
structure JsonDatabase where
  devices : IcHashMap Key DeviceCacheEntry
  resourcesByUri : Index
  systemProperties : List (CString × CString)
  storage : Storage

/-- A `storageSave` that succeeds. -/
def storageSave (st : Storage) (key : CString) (image : StoredImage) : Storage :=
  match hashMapGet st key with
  | some _ => hashMapModify st key fun _ => image
  | none => (hashMapPut st key image).1

theorem hashMapGet_storageSave (st : Storage) (key : CString) (image : StoredImage)
    (key' : CString) :
    hashMapGet (storageSave st key image) key' =
      if key' = key then some image else hashMapGet st key' := by
  unfold storageSave
  split
  · rename_i old hold
    rw [hashMapGet_modify]
    split
    · rename_i hk
      simp [hk, hold]
    · rfl
  · rename_i hnone
    exact hashMapGet_put hnone key'

/-! ## Access through pointers -/

def modifyEntry (db : JsonDatabase) (k : Key) (f : DeviceCacheEntry → DeviceCacheEntry) :
    JsonDatabase :=
  { db with devices := hashMapModify db.devices k f }

def modifyDevice (db : JsonDatabase) (k : Key) (f : IcDevice → IcDevice) : JsonDatabase :=
  modifyEntry db k fun entry => { entry with device := f entry.device }

/-- Follow a pointer to an endpoint. -/
def derefEndpoint (db : JsonDatabase) (k : Key) (i : Nat) : Option IcDeviceEndpoint := do
  let entry ← hashMapGet db.devices k
  if i ∈ entry.destroyedEndpoints then none else entry.device.endpoints[i]?

/-- Follow a pointer to a resource of a device or of one of its endpoints. -/
def derefResource (db : JsonDatabase) (k : Key) (endpoint : Option Nat) (j : Nat) :
    Option IcDeviceResource :=
  match endpoint with
  | none => do
    let entry ← hashMapGet db.devices k
    entry.device.resources[j]?
  | some i => do
    let e ← derefEndpoint db k i
    e.resources[j]?

/-- Follow a pointer to metadata of a device or of one of its endpoints. -/
def derefMetadata (db : JsonDatabase) (k : Key) (endpoint : Option Nat) (j : Nat) :
    Option IcDeviceMetadata :=
  match endpoint with
  | none => do
    let entry ← hashMapGet db.devices k
    entry.device.metadata[j]?
  | some i => do
    let e ← derefEndpoint db k i
    e.metadata[j]?

/-- Change one endpoint of a device. -/
def withEndpoint (i : Nat) (f : IcDeviceEndpoint → IcDeviceEndpoint) (d : IcDevice) : IcDevice :=
  { d with endpoints := d.endpoints.modify i f }

/-- Change one resource of a device. -/
def withResource (endpoint : Option Nat) (j : Nat) (f : IcDeviceResource → IcDeviceResource)
    (d : IcDevice) : IcDevice :=
  match endpoint with
  | none => { d with resources := d.resources.modify j f }
  | some i => withEndpoint i (fun e => { e with resources := e.resources.modify j f }) d

/-- Change one metadata object of a device. -/
def withMetadata (endpoint : Option Nat) (j : Nat) (f : IcDeviceMetadata → IcDeviceMetadata)
    (d : IcDevice) : IcDevice :=
  match endpoint with
  | none => { d with metadata := d.metadata.modify j f }
  | some i => withEndpoint i (fun e => { e with metadata := e.metadata.modify j f }) d

/-! ## Saving and destroying -/

/-- `saveDevice`: print the device and store it under its uuid. -/
def saveDevice (db : JsonDatabase) (k : Key) (saved : Bool) : Option (JsonDatabase × Bool) := do
  let entry ← hashMapGet db.devices k
  -- `deviceToJSON` walks over all endpoints
  if entry.destroyedEndpoints ≠ [] then none
  else match entry.device.uuid with
    | none => some (db, false)
    | some uuid =>
      if saved then
        some ({ db with storage := storageSave db.storage uuid (.device entry.device) }, true)
      else some (db, false)

/-- Mark the entry dirty, save its device, and clear the mark on success. -/
def flushDevice (db : JsonDatabase) (k : Key) (saved : Bool) : Option (JsonDatabase × Bool) := do
  let (db, ok) ← saveDevice (modifyEntry db k fun e => { e with dirty := true }) k saved
  if ok then some (modifyEntry db k fun e => { e with dirty := false }, true)
  else some (db, false)

/-- `destroyCacheEntry` for an entry that is not in the map `devices`. -/
def destroyCacheEntry (idx : Index) (entry : DeviceCacheEntry) : Option Index :=
  if entry.destroyedEndpoints ≠ [] then none else removeDeviceURIEntries idx entry.device

/-- `hashMapDelete(devices, uuid, …, freeDevicesItem)`. -/
def deleteDevice (db : JsonDatabase) (k : Key) : Option JsonDatabase :=
  match hashMapGet db.devices k with
  | none => some db
  | some entry => do
    let idx ← destroyCacheEntry db.resourcesByUri entry
    some { db with devices := (hashMapDelete db.devices k).1, resourcesByUri := idx }

/-! ## Adding -/

def loadDeviceIntoCache (db : JsonDatabase) (d : IcDevice) : Option (JsonDatabase × Bool) :=
  match d.uuid with
  | none => some (db, false)
  | some uuid =>
    let k := stringKey uuid
    let entry : DeviceCacheEntry := ⟨d, false, []⟩
    match hashMapPut db.devices k entry with
    | (devices, true) => do
      let (idx, ok) ← addDeviceURIEntries k d db.resourcesByUri
      let db := { db with devices := devices, resourcesByUri := idx }
      if ok then some (db, true)
      else
        -- `freeDevicesItem` removes the uris of the device once more
        let db ← deleteDevice db k
        some (db, false)
    -- the uuid is taken: the clean-up goes by uri and may hit entries of other devices
    | (_, false) => do
      let idx ← destroyCacheEntry db.resourcesByUri entry
      some ({ db with resourcesByUri := idx }, false)

def jsonDatabaseAddDevice (db : JsonDatabase) (device : Option IcDevice) (saved : Bool) :
    Option (JsonDatabase × Bool) :=
  match device with
  | none => some (db, false)
  | some d =>
    match d.uuid with
    | none => some (db, false)
    | some uuid => do
      let (db, ok) ← loadDeviceIntoCache db d
      if ok then
        let (db, ok) ← saveDevice db (stringKey uuid) saved
        if ok then some (db, true)
        else
          -- a device that cannot be stored is taken out again
          let db ← deleteDevice db (stringKey uuid)
          some (db, false)
      else some (db, false)

/-- `jsonDatabaseAddEndpoint`: the endpoint is appended before it is indexed, and
a failure to index it destroys the endpoint but leaves it in the list. -/
def jsonDatabaseAddEndpoint (db : JsonDatabase) (endpoint : Option IcDeviceEndpoint)
    (saved : Bool) : Option (JsonDatabase × Bool) :=
  match endpoint with
  | none => some (db, false)
  | some e =>
    match e.deviceUuid, e.id with
    | some uuid, some _ =>
      let k := stringKey uuid
      match hashMapGet db.devices k with
      | none => some (db, false)
      | some entry => do
        let i := entry.device.endpoints.length
        let db := modifyDevice db k fun d => { d with endpoints := d.endpoints ++ [e] }
        let (idx, ok) ← addEndpointURIEntries k (e, i) db.resourcesByUri
        let db := { db with resourcesByUri := idx }
        -- a failing save is reported, and the endpoint stays
        if ok then saveDevice db k saved
        else
          some (modifyEntry db k fun entry =>
            { entry with destroyedEndpoints := i :: entry.destroyedEndpoints }, false)
    | _, _ => some (db, false)

/-! ## Saving parts -/

/-- `replaceEndpointResources`: the results of the insertions are not looked at. -/
def replaceEndpointResources (idx : Index) (k : Key) (i : Nat) (old : List IcDeviceResource)
    (new : List IcDeviceResource) : Option Index :=
  new.zipIdx.foldlM
    (fun idx r => (addDeviceResourceURIEntry k (some i) r idx).map Prod.fst)
    (old.foldl removeDeviceResourceURIEntry idx)

/-- `jsonDatabaseSaveEndpoint`.  Replacing the resources goes on through the
locator it was given, which is freed if an old resource has the endpoint's uri. -/
def jsonDatabaseSaveEndpoint (db : JsonDatabase) (endpoint : Option IcDeviceEndpoint)
    (saved : Bool) : Option (JsonDatabase × Bool) :=
  match endpoint.bind fun e => e.uri.map fun uri => (e, uri) with
  | none => some (db, false)
  | some (e, uri) =>
    match hashMapGet db.resourcesByUri (stringKey uri) with
    | some (.endpoint k i) => do
      let dbEndpoint ← derefEndpoint db k i
      let db := modifyDevice db k (withEndpoint i fun x => { x with enabled := e.enabled })
      if dbEndpoint.profileVersion ≠ e.profileVersion then
        -- the locator in use is freed with the old resources
        if stringKey uri ∈ resourceKeys dbEndpoint.resources then none
        let idx ← replaceEndpointResources db.resourcesByUri k i dbEndpoint.resources e.resources
        let db := modifyDevice { db with resourcesByUri := idx } k (withEndpoint i fun x =>
          { x with resources := e.resources, profileVersion := e.profileVersion })
        flushDevice db k saved
      else flushDevice db k saved
    -- no locator, or one of another kind
    | _ => some (db, false)

def jsonDatabaseSaveResource (db : JsonDatabase) (resource : Option IcDeviceResource)
    (saved : Bool) : Option (JsonDatabase × Bool) :=
  match resource.bind fun r => r.uri.map fun uri => (r, uri) with
  | none => some (db, false)
  | some (r, uri) =>
    match hashMapGet db.resourcesByUri (stringKey uri) with
    | some (.resource k endpoint j) => do
      let _ ← derefResource db k endpoint j
      let db := modifyDevice db k (withResource endpoint j fun x =>
        { x with value := r.value, cachingPolicy := r.cachingPolicy, mode := r.mode,
                 dateOfLastSyncMillis := r.dateOfLastSyncMillis })
      -- a lazy save counts as a success and leaves the entry dirty
      if r.mode &&& resourceModeLazySaveNext = 0 then flushDevice db k saved
      else some (modifyEntry db k fun e => { e with dirty := true }, true)
    | _ => some (db, false)

/-- `jsonDatabaseUpdateDateOfLastSyncMillis`; `now` is `getCurrentUnixTimeMillis()`. -/
def jsonDatabaseUpdateDateOfLastSyncMillis (db : JsonDatabase) (resource : Option IcDeviceResource)
    (now : UInt64) : Option (JsonDatabase × Bool) :=
  match resource.bind fun r => r.uri with
  | none => some (db, false)
  | some uri =>
    match hashMapGet db.resourcesByUri (stringKey uri) with
    | some (.resource k endpoint j) => do
      let _ ← derefResource db k endpoint j
      let db := modifyDevice db k (withResource endpoint j fun x =>
        { x with dateOfLastSyncMillis := now })
      some (modifyEntry db k fun e => { e with dirty := true }, true)
    | _ => some (db, false)

/-- The loop of `jsonDatabaseSaveMetadata` that looks for an endpoint by its id;
the ids are not checked for `NULL`. -/
def findEndpointIndex (destroyed : List Nat) (endpointId : CString) :
    List (IcDeviceEndpoint × Nat) → Option (Option Nat)
  | [] => some none
  | (e, i) :: rest =>
    -- `strcmp` reads the id of every endpoint up to the match
    if i ∈ destroyed then none
    else match e.id with
      | none => none
      | some id =>
        if id = endpointId then some (some i) else findEndpointIndex destroyed endpointId rest

/-- Append metadata to an endpoint or a device and index it; `none` as the entry
key tells that indexing failed. -/
def appendMetadata (db : JsonDatabase) (k : Key) (endpoint : Option Nat) (m : IcDeviceMetadata)
    (j : Nat) : Option (JsonDatabase × Option Key) := do
  let db := modifyDevice db k (match endpoint with
    | none => fun d => { d with metadata := d.metadata ++ [m] }
    | some i => withEndpoint i fun e => { e with metadata := e.metadata ++ [m] })
  let (idx, ok) ← addDeviceMetadataURIEntry k endpoint (m, j) db.resourcesByUri
  some ({ db with resourcesByUri := idx }, if ok then some k else none)

/-- The first part of `jsonDatabaseSaveMetadata`: update or create the metadata
and tell which entry has to be flushed. -/
def storeMetadata (db : JsonDatabase) (m : IcDeviceMetadata) (uri : CString) :
    Option (JsonDatabase × Option Key) :=
  match hashMapGet db.resourcesByUri (stringKey uri) with
  | some (.metadata k endpoint j) => do
    let _ ← derefMetadata db k endpoint j
    -- `strdup` of the value, which is not checked for `NULL`
    let value ← m.value
    some (modifyDevice db k
      (withMetadata endpoint j fun x => { x with value := some value }), some k)
  -- another kind of object has this uri
  | some _ => some (db, none)
  | none => do
    -- new metadata; the uuid is not checked for `NULL`
    let deviceUuid ← m.deviceUuid
    let k := stringKey deviceUuid
    match hashMapGet db.devices k, m.endpointId with
    | none, _ => some (db, none)
    | some entry, some endpointId => do
      match ← findEndpointIndex entry.destroyedEndpoints endpointId
        entry.device.endpoints.zipIdx with
      -- no endpoint has the id: nothing is added, and the device is saved all the same
      | none => some (db, some k)
      | some i => do
        let e ← derefEndpoint db k i
        appendMetadata db k (some i) m e.metadata.length
    | some entry, none => appendMetadata db k none m entry.device.metadata.length

def jsonDatabaseSaveMetadata (db : JsonDatabase) (metadata : Option IcDeviceMetadata)
    (saved : Bool) : Option (JsonDatabase × Bool) :=
  match metadata.bind fun m => m.uri.map fun uri => (m, uri) with
  | none => some (db, false)
  | some (m, uri) => do
    let (db, entry) ← storeMetadata db m uri
    match entry with
    | none => some (db, false)
    | some k => flushDevice db k saved

/-! ## Removing -/

/-- `jsonDatabaseRemoveDeviceById`; `deleted` is the outcome of `storageDelete`. -/
def jsonDatabaseRemoveDeviceById (db : JsonDatabase) (uuid : Option CString) (deleted : Bool) :
    Option (JsonDatabase × Bool) :=
  match uuid with
  | none => some (db, false)
  | some uuid =>
    match hashMapGet db.devices (stringKey uuid) with
    | none => some (db, false)
    | some _ =>
      -- the device goes only after its file
      if deleted then do
        let db ← deleteDevice { db with storage := (hashMapDelete db.storage uuid).1 }
          (stringKey uuid)
        some (db, true)
      else some (db, false)

/-! ## The database as a machine -/

/-- A call of a mutator, with the outcome of the storage operation it makes. -/
inductive Op where
  | addDevice (device : Option IcDevice) (saved : Bool)
  | addEndpoint (endpoint : Option IcDeviceEndpoint) (saved : Bool)
  | saveEndpoint (endpoint : Option IcDeviceEndpoint) (saved : Bool)
  | saveResource (resource : Option IcDeviceResource) (saved : Bool)
  | updateDateOfLastSyncMillis (resource : Option IcDeviceResource) (now : UInt64)
  | saveMetadata (metadata : Option IcDeviceMetadata) (saved : Bool)
  | removeDeviceById (uuid : Option CString) (deleted : Bool)
deriving DecidableEq, Repr

def step (db : JsonDatabase) : Op → Option (JsonDatabase × Bool)
  | .addDevice d saved => jsonDatabaseAddDevice db d saved
  | .addEndpoint e saved => jsonDatabaseAddEndpoint db e saved
  | .saveEndpoint e saved => jsonDatabaseSaveEndpoint db e saved
  | .saveResource r saved => jsonDatabaseSaveResource db r saved
  | .updateDateOfLastSyncMillis r now => jsonDatabaseUpdateDateOfLastSyncMillis db r now
  | .saveMetadata m saved => jsonDatabaseSaveMetadata db m saved
  | .removeDeviceById uuid deleted => jsonDatabaseRemoveDeviceById db uuid deleted

def systemPropertiesKey : CString := "systemProperties".toList
def schemaVersionKey : CString := "schemaVersion".toList
def currentSchemaVersion : CString := ['1']

/-- The database `jsonDatabaseInitialize` makes when nothing is stored: no
device, and the schema version as only property. -/
def emptyDatabase (saved : Bool) : JsonDatabase where
  devices := hashMapCreate
  resourcesByUri := hashMapCreate
  systemProperties := [(schemaVersionKey, currentSchemaVersion)]
  storage :=
    if saved then
      storageSave hashMapCreate systemPropertiesKey
        (.systemProperties [(schemaVersionKey, currentSchemaVersion)])
    else hashMapCreate

end ZilkerSdk.Device.Database

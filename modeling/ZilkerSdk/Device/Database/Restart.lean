import ZilkerSdk.Device.Database.Consistency

/-!
# Shutting the device database down and starting it again

Model of `jsonDatabaseCleanup(true)` and `jsonDatabaseInitialize`.  Cleanup saves
the system properties and every device that is marked dirty; the saves it makes
succeed here.  Initialisation reads the system properties and then loads every
key of the namespace as a device.  Both iterate over hash maps or directories,
whose order is an argument.

The storage is a map from keys to files that are whole; backup files, which the
source falls back on when a file cannot be parsed, are not modelled.
-/

namespace ZilkerSdk.Device.Database

open Types Lib List

/-! ## Keys of the storage -/

def storageKeyFileName : CString := "store".toList

/-- The test of `storageGetKeys` for files that are not keys. -/
def isListed (name : CString) : Bool :=
  name ≠ storageKeyFileName &&
    !(decide (name.length > 4) && decide (name.drop (name.length - 4) ∈
      [".bak".toList, ".tmp".toList, ".bad".toList]))

/-- A uuid that can be used as key of the storage and of the devices map: its
length fits, it names a plain file that is listed, and it is not the key of the
system properties. -/
def StorageKey (uuid : CString) : Prop :=
  uuid.length + 1 < 2 ^ 16 ∧ '/' ∉ uuid ∧ isListed uuid ∧ uuid ≠ systemPropertiesKey

instance (uuid : CString) : Decidable (StorageKey uuid) := inferInstanceAs (Decidable (_ ∧ _))

/-- `keys` is what `storageGetKeys` can return for the storage. -/
def IsListing (st : Storage) (keys : List CString) : Prop :=
  keys.Nodup ∧ ∀ key, key ∈ keys ↔ isListed key ∧ hashMapGet st key ≠ none

/-! ## Cleanup -/

/-- The save of one entry in `jsonDatabaseCleanupNoLock`. -/
def saveIfDirty (st : Storage) (item : Key × DeviceCacheEntry) : Option Storage :=
  if item.2.dirty then
    if item.2.destroyedEndpoints ≠ [] then none
    else match item.2.device.uuid with
      | none => some st
      | some uuid => some (storageSave st uuid (.device item.2.device))
  else some st

/-- `jsonDatabaseCleanup(true)`: what is left is the storage.  `order` is the
order in which the devices are visited. -/
def jsonDatabaseCleanup (db : JsonDatabase) (order : List (Key × DeviceCacheEntry)) :
    Option Storage := do
  let st ← order.foldlM saveIfDirty
    (storageSave db.storage systemPropertiesKey (.systemProperties db.systemProperties))
  -- `hashMapDestroy(devices, freeDevicesItem)`
  let _ ← order.foldlM (fun idx item => destroyCacheEntry idx item.2) db.resourcesByUri
  some st

/-! ## Initialisation -/

/-- The string items of a stored object, as `loadSystemProperties` reads them. -/
def stringItems : StoredImage → List (CString × CString)
  | .systemProperties props => props
  -- any JSON object will do, so a device is read as properties too
  | .device d =>
    [("deviceDriver".toList, d.managingDeviceDriver), ("deviceClass".toList, d.deviceClass),
      ("uri".toList, d.uri), ("uuid".toList, d.uuid)].filterMap
      fun item => item.2.map fun value => (item.1, value)

/-- One round of the loop of `loadDevices`; a device that cannot be loaded is
only logged. -/
def loadDevice (st : Storage) (db : JsonDatabase) (key : CString) : Option JsonDatabase :=
  if key = systemPropertiesKey then some db
  else match hashMapGet st key with
    | some (.device d) => (loadDeviceIntoCache db d).map Prod.fst
    | _ => some db

/-- `jsonDatabaseInitialize` over a storage that lists `keys`. -/
def jsonDatabaseInitialize (st : Storage) (keys : List CString) (saved : Bool) :
    Option JsonDatabase :=
  match hashMapGet st systemPropertiesKey with
  | some image => keys.foldlM (loadDevice st) ⟨hashMapCreate, hashMapCreate, stringItems image, st⟩
  -- nothing can be read: an empty database that has its schema version
  | none => some { emptyDatabase saved with
      storage := if saved then storageSave st systemPropertiesKey
        (.systemProperties [(schemaVersionKey, currentSchemaVersion)]) else st }

/-! ## Locators do not repeat -/

variable {k : Key}

theorem nodup_map_zipIdx {α β : Type*} {f : Nat → β} (hf : Function.Injective f) (as : List α)
    (n : Nat) : ((as.zipIdx n).map fun p => f p.2).Nodup := by
  have hmap : ((as.zipIdx n).map fun p => f p.2) = (range' n as.length).map f := by
    rw [← zipIdx_map_snd, map_map]
    rfl
  rw [hmap]
  exact List.Nodup.map hf nodup_range'

/-- Resources and metadata have locators of different kinds. -/
theorem nodup_items (endpoint : Option Nat) (rs : List IcDeviceResource)
    (ms : List IcDeviceMetadata) :
    ((resourceObjects k endpoint rs ++ metadataObjects k endpoint ms).map Prod.snd).Nodup := by
  rw [resourceObjects, metadataObjects, map_append, map_map, map_map, nodup_append]
  refine ⟨nodup_map_zipIdx (fun _ _ h => (Locator.resource.inj h).2.2) rs 0,
    nodup_map_zipIdx (fun _ _ h => (Locator.metadata.inj h).2.2) ms 0, ?_⟩
  simp +contextual [eq_comm]

variable {os : List Object} {d : IcDevice} {uuid : CString} {order : List (Key × DeviceCacheEntry)}
  {entry : DeviceCacheEntry} {keys : List CString}

theorem mem_map_snd_iff {l : Locator} : l ∈ os.map Prod.snd ↔ ∃ u, (u, l) ∈ os := by
  simp

theorem nodup_endpointObjects (e : IcDeviceEndpoint) (i : Nat) :
    ((endpointObjects k (e, i)).map Prod.snd).Nodup := by
  rw [endpointObjects, map_cons, nodup_cons]
  refine ⟨?_, nodup_items _ _ _⟩
  simp [resourceObjects, metadataObjects]

/-- The endpoint position a locator mentions. -/
def Locator.position : Locator → Option Nat
  | .device _ => none
  | .endpoint _ i => some i
  | .resource _ i _ => i
  | .metadata _ i _ => i

theorem position_of_mem_endpointObjects {e : IcDeviceEndpoint} {i : Nat} {l : Locator}
    (h : l ∈ (endpointObjects k (e, i)).map Prod.snd) : l.position = some i := by
  obtain ⟨u, hu⟩ := mem_map_snd_iff.mp h
  rcases mem_endpointObjects.mp hu with ⟨rfl, -⟩ | ⟨j, rfl, -⟩ | ⟨j, rfl, -⟩ <;> rfl

theorem nodup_deviceObjects (d : IcDevice) : ((deviceObjects k d).map Prod.snd).Nodup := by
  have hendpoints : ((d.endpoints.zipIdx.flatMap (endpointObjects k)).map Prod.snd).Nodup := by
    rw [map_flatMap, nodup_flatMap]
    refine ⟨fun e _ => nodup_endpointObjects e.1 e.2, ?_⟩
    -- endpoints at different positions
    have hpos : (d.endpoints.zipIdx.map Prod.snd).Nodup := by
      rw [zipIdx_map_snd]
      exact nodup_range'
    rw [List.Nodup, pairwise_map] at hpos
    refine hpos.imp fun {e e'} hne l hl hl' => hne ?_
    exact Option.some.inj ((position_of_mem_endpointObjects hl).symm.trans
      (position_of_mem_endpointObjects hl'))
  -- what is not in an endpoint mentions no position
  have hnone : ∀ l ∈ (resourceObjects k none d.resources ++
      metadataObjects k none d.metadata).map Prod.snd, l.position = none ∧ l ≠ .device k := by
    intro l hl
    obtain ⟨u, hu⟩ := mem_map_snd_iff.mp hl
    rcases mem_append.mp hu with hu | hu
    · obtain ⟨j, rfl, -⟩ := mem_resourceObjects.mp hu
      exact ⟨rfl, by simp⟩
    · obtain ⟨j, rfl, -⟩ := mem_metadataObjects.mp hu
      exact ⟨rfl, by simp⟩
  have hsome : ∀ l ∈ (d.endpoints.zipIdx.flatMap (endpointObjects k)).map Prod.snd,
      l.position ≠ none := by
    intro l hl
    rw [map_flatMap, mem_flatMap] at hl
    obtain ⟨e, -, hl⟩ := hl
    simp [position_of_mem_endpointObjects hl]
  rw [deviceObjects, map_cons, nodup_cons, map_append, nodup_append]
  refine ⟨fun hmem => ?_, hendpoints, nodup_items _ _ _, fun l hl l' hl' heq => ?_⟩
  · rcases mem_append.mp hmem with hmem | hmem
    · exact hsome _ hmem rfl
    · exact (hnone _ hmem).2 rfl
  · exact hsome l hl (heq ▸ (hnone l' hl').1)

/-! ## Loading -/

variable {db : JsonDatabase}

/-- A device whose uuid is free and whose objects can be indexed is loaded. -/
theorem loadDeviceIntoCache_complete (huuid : d.uuid = some uuid)
    (hfree : hashMapGet db.devices (stringKey uuid) = none)
    (hok : Indexable db.resourcesByUri.items (deviceObjects (stringKey uuid) d)) :
    ∃ db', loadDeviceIntoCache db d = some (db', true) ∧ Accepted db db' (stringKey uuid) d ∧
      db'.storage = db.storage := by
  obtain ⟨idx, hidx⟩ := (insertDeviceURIEntries_indexes (stringKey uuid) d).complete hok.1 hok.2
  have hadd : addDeviceURIEntries (stringKey uuid) d db.resourcesByUri = some (idx, true) := by
    simp [addDeviceURIEntries, hidx]
  have hput : hashMapPut db.devices (stringKey uuid) (⟨d, false, []⟩ : DeviceCacheEntry) =
      ((hashMapPut db.devices (stringKey uuid) ⟨d, false, []⟩).1, true) :=
    Prod.ext rfl ((hashMapPut_snd _ _ _).mpr hfree)
  have hload : loadDeviceIntoCache db d =
      some ({ db with devices := (hashMapPut db.devices (stringKey uuid) ⟨d, false, []⟩).1,
                      resourcesByUri := idx }, true) := by
    simp only [loadDeviceIntoCache, huuid]
    rw [hput]
    simp [hadd]
  refine ⟨_, hload, ?_⟩
  rcases loadDeviceIntoCache_cases huuid hload with ⟨-, hacc⟩ | ⟨hok, -⟩
  · exact hacc
  · cases hok

/-- The objects of the devices `dev key`, for the keys of a list. -/
def objectsOf (dev : CString → IcDevice) (keys : List CString) : List Object :=
  keys.flatMap fun key => deviceObjects (stringKey key) (dev key)

/-- Loading a list of stored devices whose objects can all be indexed together
loads every one of them and touches no other entry. -/
theorem loadDevices_spec {st : Storage} (dev : CString → IcDevice) (keys : List CString)
    (db : JsonDatabase)
    (hstored : ∀ key ∈ keys, key = systemPropertiesKey ∨
      (hashMapGet st key = some (.device (dev key)) ∧ (dev key).uuid = some key))
    (hkeys : (keys.map stringKey).Nodup)
    (hfree : ∀ key ∈ keys, hashMapGet db.devices (stringKey key) = none)
    (hok : Indexable db.resourcesByUri.items
      (objectsOf dev (keys.filter (· ≠ systemPropertiesKey)))) :
    ∃ db', keys.foldlM (loadDevice st) db = some db' ∧
      db'.systemProperties = db.systemProperties ∧
      (∀ key ∈ keys, key ≠ systemPropertiesKey →
        hashMapGet db'.devices (stringKey key) = some ⟨dev key, false, []⟩) ∧
      ∀ k, (∀ key ∈ keys, key ≠ systemPropertiesKey → stringKey key ≠ k) →
        hashMapGet db'.devices k = hashMapGet db.devices k := by
  -- induction on the keys: the rest is loaded into what the first has left
  induction keys generalizing db with
  | nil => exact ⟨db, rfl, rfl, by simp, fun _ _ => rfl⟩
  | cons key keys ih =>
    rw [map_cons, nodup_cons] at hkeys
    have hstored' := fun x hx => hstored x (mem_cons_of_mem key hx)
    by_cases hsys : key = systemPropertiesKey
    · -- the system properties are skipped
      subst hsys
      obtain ⟨db', hload, hprops, hin, hout⟩ := ih db hstored' hkeys.2
        (fun x hx => hfree x (mem_cons_of_mem _ hx)) hok
      refine ⟨db', by simpa [loadDevice] using hload, hprops, ?_, ?_⟩
      · intro x hx hne
        exact hin x ((mem_cons.mp hx).resolve_left hne) hne
      · intro k hk
        exact hout k fun x hx => hk x (mem_cons_of_mem _ hx)
    · obtain ⟨hget, huuid⟩ := (hstored key mem_cons_self).resolve_left hsys
      have hfilter : ((key :: keys).filter (· ≠ systemPropertiesKey)) =
          key :: keys.filter (· ≠ systemPropertiesKey) := by simp [hsys]
      rw [hfilter, objectsOf, flatMap_cons] at hok
      obtain ⟨hnamed, hnodup⟩ := hok
      obtain ⟨hnamed₁, hnamed₂⟩ := named_append.mp hnamed
      rw [entriesOf_append, ← append_assoc] at hnodup
      have hnodup₁ := hnodup
      rw [map_append] at hnodup₁
      obtain ⟨db₁, hload₁, hacc, -⟩ := loadDeviceIntoCache_complete huuid
        (hfree key mem_cons_self) ⟨hnamed₁, (nodup_append.mp hnodup₁).1⟩
      -- the round for the first key
      have hother : ∀ x ∈ keys, stringKey x ≠ stringKey key := fun x hx heq =>
        hkeys.1 (heq ▸ mem_map_of_mem hx)
      obtain ⟨db', hload, hprops, hin, hout⟩ := ih db₁ hstored' hkeys.2
        (fun x hx => by
          rw [hacc.lookup, if_neg (hother x hx)]
          exact hfree x (mem_cons_of_mem _ hx))
        ⟨hnamed₂, by rw [hacc.index]; exact hnodup⟩
      refine ⟨db', ?_, hprops.trans hacc.systemProperties, ?_, ?_⟩
      · have hround : loadDevice st db key = some db₁ := by simp [loadDevice, hsys, hget, hload₁]
        simp [foldlM_cons, hround, hload]
      · intro x hx hne
        rcases mem_cons.mp hx with rfl | hx
        · rw [hout _ fun y hy _ => hother y hy, hacc.lookup, if_pos rfl]
        · exact hin x hx hne
      · intro k hk
        rw [hout k fun x hx => hk x (mem_cons_of_mem _ hx), hacc.lookup, if_neg]
        exact fun heq => hk key mem_cons_self hsys heq.symm

/-! ## What a restart relies on -/

/-- All objects of the database have uris, and no two the same key. -/
structure LiveUris (db : JsonDatabase) : Prop where
  named : ∀ u l, Holds db u l → u ≠ none
  distinct : ∀ uri uri' l l', Holds db (some uri) l → Holds db (some uri') l' →
    stringKey uri = stringKey uri' → l = l'

/-- The write-back invariant: a device that is not dirty is what is stored under
its uuid, and nothing is stored for a device that is not there. -/
structure WriteBackInv (db : JsonDatabase) : Prop where
  uris : LiveUris db
  alive : NoneDestroyed db
  keyed : ∀ k entry, hashMapGet db.devices k = some entry →
    ∃ uuid, entry.device.uuid = some uuid ∧ stringKey uuid = k ∧ StorageKey uuid
  clean : ∀ k entry uuid, hashMapGet db.devices k = some entry →
    entry.device.uuid = some uuid → entry.dirty = false →
    hashMapGet db.storage uuid = some (.device entry.device)
  owned : ∀ key, key ≠ systemPropertiesKey → hashMapGet db.storage key ≠ none →
    ∃ entry, hashMapGet db.devices (stringKey key) = some entry ∧ entry.device.uuid = some key

/-! ## What cleanup leaves behind -/

theorem removeDeviceURIEntries_defined (h : Named (deviceObjects k d)) (idx : Index) :
    ∃ idx', removeDeviceURIEntries idx d = some idx' := by
  have hnamed : ∀ l u, l.entry = k → uriAt d l = some u → u.isSome := fun l u hl hu =>
    h (u, l) (mem_deviceObjects.mpr ⟨hl, hu⟩)
  apply Option.isSome_iff_exists.mp
  rw [removeDeviceURIEntries_isSome_iff]
  intro _
  constructor
  · intro e he _ m hm
    obtain ⟨i, hi⟩ := mem_iff_getElem?.mp he
    obtain ⟨j, hj⟩ := mem_iff_getElem?.mp hm
    exact hnamed (.metadata k (some i) j) m.uri rfl (by simp [uriAt, hi, hj])
  · intro m hm
    obtain ⟨j, hj⟩ := mem_iff_getElem?.mp hm
    exact hnamed (.metadata k none j) m.uri rfl (by simp [uriAt, hj])

/-- One round of the loop of cleanup writes at most the file of its device. -/
theorem saveIfDirty_round {item : Key × DeviceCacheEntry} (st : Storage)
    (halive : item.2.destroyedEndpoints = []) :
    ∃ st', saveIfDirty st item = some st' ∧
      (item.2.dirty = true → ∀ uuid, item.2.device.uuid = some uuid →
        hashMapGet st' uuid = some (.device item.2.device)) ∧
      ∀ key, (item.2.dirty = true → item.2.device.uuid ≠ some key) →
        hashMapGet st' key = hashMapGet st key := by
  cases hdirty : item.2.dirty with
  | false => exact ⟨st, by simp [saveIfDirty, hdirty], by simp, fun _ _ => rfl⟩
  | true =>
    cases huuid : item.2.device.uuid with
    | none =>
      -- `storageSave` refuses a `NULL` key
      refine ⟨st, ?_, by simp, fun _ _ => rfl⟩
      simp [saveIfDirty, hdirty, halive, huuid]
    | some uuid =>
      refine ⟨storageSave st uuid (.device item.2.device), ?_, ?_, ?_⟩
      · simp [saveIfDirty, hdirty, halive, huuid]
      · intro _ uuid' heq
        cases heq
        rw [hashMapGet_storageSave, if_pos rfl]
      · intro key hkey
        rw [hashMapGet_storageSave, if_neg]
        exact fun heq => hkey rfl (by rw [heq])

/-- The loop of cleanup: every dirty device gets its file, and no other file
changes. -/
theorem saveIfDirty_spec (order : List (Key × DeviceCacheEntry)) (st : Storage)
    (halive : ∀ item ∈ order, item.2.destroyedEndpoints = [])
    (hne : order.Pairwise fun a b => a.2.device.uuid ≠ b.2.device.uuid) :
    ∃ st', order.foldlM saveIfDirty st = some st' ∧
      (∀ item ∈ order, item.2.dirty = true → ∀ uuid, item.2.device.uuid = some uuid →
        hashMapGet st' uuid = some (.device item.2.device)) ∧
      ∀ key, (∀ item ∈ order, item.2.dirty = true → item.2.device.uuid ≠ some key) →
        hashMapGet st' key = hashMapGet st key := by
  induction order generalizing st with
  | nil => exact ⟨st, rfl, by simp, fun _ _ => rfl⟩
  | cons item order ih =>
    rw [pairwise_cons] at hne
    obtain ⟨st₁, hround, hsaved, hkept⟩ := saveIfDirty_round st (halive item mem_cons_self)
    obtain ⟨st', hrest, hin, hout⟩ := ih st₁
      (fun x hx => halive x (mem_cons_of_mem item hx)) hne.2
    refine ⟨st', by simp [foldlM_cons, hround, hrest], ?_, ?_⟩
    · intro x hx hdirty uuid huuid
      rcases mem_cons.mp hx with rfl | hx
      · -- no later entry has this uuid
        rw [hout uuid fun y hy _ heq => hne.1 y hy (huuid.trans heq.symm)]
        exact hsaved hdirty uuid huuid
      · exact hin x hx hdirty uuid huuid
    · intro key hkey
      rw [hout key fun y hy => hkey y (mem_cons_of_mem _ hy)]
      exact hkept key (hkey item mem_cons_self)

theorem WriteBackInv.uuids_distinct (h : WriteBackInv db) (horder : order.Perm db.devices.items) :
    order.Pairwise fun a b => a.2.device.uuid ≠ b.2.device.uuid := by
  have hget : ∀ item ∈ order, hashMapGet db.devices item.1 = some item.2 := fun item hitem =>
    mem_items_iff.mp (horder.mem_iff.mp hitem)
  have hkeys : (order.map Prod.fst).Nodup :=
    (horder.map Prod.fst).nodup_iff.mpr db.devices.nodupKeys
  rw [List.Nodup, pairwise_map] at hkeys
  refine hkeys.imp_of_mem fun {a b} ha hb hab heq => hab ?_
  obtain ⟨uuid, huuid, hkey, -⟩ := h.keyed _ _ (hget a ha)
  obtain ⟨uuid', huuid', hkey', -⟩ := h.keyed _ _ (hget b hb)
  rw [huuid, huuid'] at heq
  rw [← hkey, ← hkey', Option.some.inj heq]

theorem WriteBackInv.destroyCacheEntry_defined (h : WriteBackInv db)
    (hentry : hashMapGet db.devices k = some entry) (idx : Index) :
    ∃ idx', destroyCacheEntry idx entry = some idx' := by
  have hnamed : Named (deviceObjects k entry.device) := by
    intro o hmem
    obtain ⟨hl, hu⟩ := mem_deviceObjects.mp hmem
    exact Option.isSome_iff_ne_none.mpr (h.uris.named o.1 o.2 ⟨entry, by rw [hl]; exact hentry, hu⟩)
  obtain ⟨idx', hidx'⟩ := removeDeviceURIEntries_defined hnamed idx
  exact ⟨idx', by simp [destroyCacheEntry, h.alive _ _ hentry, hidx']⟩

/-- After cleanup the storage holds the system properties and, for exactly the
devices of the database, their last state. -/
theorem cleanup_spec (h : WriteBackInv db) (horder : order.Perm db.devices.items) :
    ∃ st, jsonDatabaseCleanup db order = some st ∧
      hashMapGet st systemPropertiesKey = some (.systemProperties db.systemProperties) ∧
      (∀ k entry uuid, hashMapGet db.devices k = some entry → entry.device.uuid = some uuid →
        hashMapGet st uuid = some (.device entry.device)) ∧
      ∀ key, key ≠ systemPropertiesKey → hashMapGet st key ≠ none →
        ∃ entry, hashMapGet db.devices (stringKey key) = some entry ∧
          entry.device.uuid = some key := by
  have hget : ∀ item ∈ order, hashMapGet db.devices item.1 = some item.2 := fun item hitem =>
    mem_items_iff.mp (horder.mem_iff.mp hitem)
  obtain ⟨st, hst, hin, hout⟩ := saveIfDirty_spec order
    (storageSave db.storage systemPropertiesKey (.systemProperties db.systemProperties))
    (fun item hitem => h.alive _ _ (hget item hitem)) (h.uuids_distinct horder)
  obtain ⟨idx, hidx⟩ := foldlM_defined (f := fun idx (item : Key × DeviceCacheEntry) =>
      destroyCacheEntry idx item.2) order
    (fun item hitem idx => h.destroyCacheEntry_defined (hget item hitem) idx) db.resourcesByUri
  refine ⟨st, by simp [jsonDatabaseCleanup, hst, hidx], ?_, ?_, ?_⟩
  · rw [hout, hashMapGet_storageSave, if_pos rfl]
    intro item hitem _ heq
    obtain ⟨uuid, huuid, -, hkey⟩ := h.keyed _ _ (hget item hitem)
    exact hkey.2.2.2 (Option.some.inj (huuid.symm.trans heq))
  · intro k entry uuid hentry huuid
    have hmem : (k, entry) ∈ order := horder.mem_iff.mpr (mem_items_iff.mpr hentry)
    cases hdirty : entry.dirty with
    | true => exact hin (k, entry) hmem hdirty uuid huuid
    | false =>
      obtain ⟨uuid', huuid', hk, hkey⟩ := h.keyed k entry hentry
      cases huuid.symm.trans huuid'
      rw [hout uuid, hashMapGet_storageSave, if_neg hkey.2.2.2]
      · exact h.clean k entry uuid hentry huuid hdirty
      · -- another entry with this uuid would be this entry
        intro item hitem hitemDirty heq
        obtain ⟨uuid'', huuid'', hk'', -⟩ := h.keyed _ _ (hget item hitem)
        cases heq.symm.trans huuid''
        have hsame := hget item hitem
        rw [← hk'', hk, hentry] at hsame
        rw [← Option.some.inj hsame, hdirty] at hitemDirty
        cases hitemDirty
  · intro key hkey hstored
    -- a file is written now, or was there before
    by_cases hdirty : ∃ item ∈ order, item.2.dirty = true ∧ item.2.device.uuid = some key
    · obtain ⟨item, hitem, -, huuid⟩ := hdirty
      obtain ⟨uuid, huuid', hk, -⟩ := h.keyed _ _ (hget item hitem)
      cases huuid.symm.trans huuid'
      exact ⟨item.2, hk ▸ hget item hitem, huuid⟩
    · rw [hout key fun item hitem hd hu => hdirty ⟨item, hitem, hd, hu⟩,
        hashMapGet_storageSave, if_neg hkey] at hstored
      exact h.owned key hkey hstored

/-! ## A restart restores the devices -/

theorem LiveUris.nodup_keys (h : LiveUris db) (hos : ∀ u l, (u, l) ∈ os → Holds db u l)
    (hnd : (os.map Prod.snd).Nodup) : ((entriesOf os).map Prod.fst).Nodup := by
  rw [entriesOf, map_filterMap, List.Nodup, pairwise_filterMap]
  rw [List.Nodup, pairwise_map] at hnd
  refine hnd.imp_of_mem fun {o o'} ho ho' hne key hkey key' hkey' heq => hne ?_
  -- two objects with the same key are the same object
  obtain ⟨uri, huri, rfl⟩ : ∃ uri, o.1 = some uri ∧ stringKey uri = key := by simpa using hkey
  obtain ⟨uri', huri', rfl⟩ : ∃ uri, o'.1 = some uri ∧ stringKey uri = key' := by simpa using hkey'
  exact h.distinct uri uri' o.2 o'.2 (huri ▸ hos _ _ ho) (huri' ▸ hos _ _ ho') heq

/-- The objects of different devices have different locators. -/
theorem locators_nodup (dev : CString → IcDevice) (hkeys : (keys.map stringKey).Nodup) :
    ((objectsOf dev keys).map Prod.snd).Nodup := by
  rw [objectsOf, map_flatMap, nodup_flatMap]
  refine ⟨fun key _ => nodup_deviceObjects (dev key), ?_⟩
  rw [List.Nodup, pairwise_map] at hkeys
  refine hkeys.imp fun {a b} hab l hl hl' => hab ?_
  obtain ⟨u, hu⟩ := mem_map_snd_iff.mp hl
  obtain ⟨u', hu'⟩ := mem_map_snd_iff.mp hl'
  exact (mem_deviceObjects.mp hu).1.symm.trans (mem_deviceObjects.mp hu').1

theorem systemPropertiesKey_fits : systemPropertiesKey.length + 1 < 2 ^ 16 := by decide

/-- The device of the database under a uuid. -/
def deviceUnder (db : JsonDatabase) (uuid : CString) : IcDevice :=
  ((hashMapGet db.devices (stringKey uuid)).map (·.device)).getD default

theorem deviceUnder_eq (hentry : hashMapGet db.devices (stringKey uuid) = some entry) :
    deviceUnder db uuid = entry.device := by
  simp [deviceUnder, hentry]

/-- Every key but that of the system properties is the uuid of a live device. -/
def AllLive (db : JsonDatabase) (keys : List CString) : Prop :=
  ∀ key ∈ keys, key ≠ systemPropertiesKey → ∃ entry,
    hashMapGet db.devices (stringKey key) = some entry ∧ entry.device.uuid = some key

theorem WriteBackInv.nodup_stringKeys (h : WriteBackInv db) (hlive : AllLive db keys)
    (hkeys : keys.Nodup) : (keys.map stringKey).Nodup := by
  have hfits : ∀ key ∈ keys, key.length + 1 < 2 ^ 16 := by
    intro key hmem
    by_cases hsys : key = systemPropertiesKey
    · exact hsys ▸ systemPropertiesKey_fits
    · obtain ⟨entry, hentry, huuid⟩ := hlive key hmem hsys
      obtain ⟨uuid, huuid', -, hkey⟩ := h.keyed _ _ hentry
      cases huuid.symm.trans huuid'
      exact hkey.1
  exact List.Nodup.map_on
    (fun a ha b hb heq => stringKey_injective (hfits a ha) (hfits b hb) heq) hkeys

theorem WriteBackInv.indexable (h : WriteBackInv db) (hlive : AllLive db keys)
    (hkeys : keys.Nodup) :
    Indexable [] (objectsOf (deviceUnder db) (keys.filter (· ≠ systemPropertiesKey))) := by
  have hobjects : ∀ u l, (u, l) ∈ objectsOf (deviceUnder db)
      (keys.filter (· ≠ systemPropertiesKey)) → Holds db u l := by
    intro u l hmem
    obtain ⟨key, hkey, hmem⟩ := mem_flatMap.mp hmem
    obtain ⟨hkey, hne⟩ := mem_filter.mp hkey
    obtain ⟨entry, hentry, -⟩ := hlive key hkey (by simpa using hne)
    rw [deviceUnder_eq hentry] at hmem
    exact (holds_iff_mem hentry (mem_deviceObjects.mp hmem).1).mpr hmem
  refine ⟨fun o ho => ?_, ?_⟩
  · exact Option.isSome_iff_ne_none.mpr (h.uris.named o.1 o.2 (hobjects o.1 o.2 ho))
  · exact h.uris.nodup_keys hobjects (locators_nodup (deviceUnder db)
      ((h.nodup_stringKeys hlive hkeys).sublist (filter_sublist.map stringKey)))

/-- Cleanup followed by initialisation gives back the devices of the database,
whatever the orders in which the two visit devices and files. -/
def RestartRestores (db : JsonDatabase) : Prop :=
  ∀ order : List (Key × DeviceCacheEntry), order.Perm db.devices.items →
    ∃ st, jsonDatabaseCleanup db order = some st ∧ ∀ keys saved, IsListing st keys →
      ∃ db', jsonDatabaseInitialize st keys saved = some db' ∧
        db'.systemProperties = db.systemProperties ∧
        ∀ k, (hashMapGet db'.devices k).map (·.device) =
          (hashMapGet db.devices k).map (·.device)

/-- What initialisation loads is what cleanup had in memory. -/
theorem restart_restores (h : WriteBackInv db) : RestartRestores db := by
  intro order horder
  obtain ⟨st, hst, hprops, hfiles, howned⟩ := cleanup_spec h horder
  refine ⟨st, hst, fun keys saved hkeys => ?_⟩
  have hlive : AllLive db keys := fun key hmem hne => howned key hne ((hkeys.2 key).mp hmem).2
  -- every file that is left has the device that is in memory under its name
  have hstored : ∀ key ∈ keys, key = systemPropertiesKey ∨
      (hashMapGet st key = some (.device (deviceUnder db key)) ∧
        (deviceUnder db key).uuid = some key) := by
    intro key hmem
    by_cases hsys : key = systemPropertiesKey
    · exact .inl hsys
    · obtain ⟨entry, hentry, huuid⟩ := hlive key hmem hsys
      rw [deviceUnder_eq hentry]
      exact .inr ⟨hfiles _ _ key hentry huuid, huuid⟩
  obtain ⟨db', hload, hsp, hin, hout⟩ := loadDevices_spec (deviceUnder db) keys
    ⟨hashMapCreate, hashMapCreate, db.systemProperties, st⟩ hstored
    (h.nodup_stringKeys hlive hkeys.1) (fun _ _ => rfl) (h.indexable hlive hkeys.1)
  refine ⟨db', by simp [jsonDatabaseInitialize, hprops, stringItems, hload], hsp, fun k => ?_⟩
  by_cases hk : ∃ key ∈ keys, key ≠ systemPropertiesKey ∧ stringKey key = k
  · obtain ⟨key, hmem, hne, rfl⟩ := hk
    obtain ⟨entry, hentry, -⟩ := hlive key hmem hne
    rw [hin key hmem hne, hentry, Option.map_some, Option.map_some, deviceUnder_eq hentry]
  · -- a device that is not loaded was not there
    have hnone : hashMapGet db.devices k = none := by
      by_contra hsome
      obtain ⟨entry, hentry⟩ := Option.ne_none_iff_exists'.mp hsome
      obtain ⟨uuid, huuid, hkey, hstorage⟩ := h.keyed k entry hentry
      refine hk ⟨uuid, (hkeys.2 uuid).mpr ⟨hstorage.2.2.1, ?_⟩, hstorage.2.2.2, hkey⟩
      rw [hfiles k entry uuid hentry huuid]
      simp
    rw [hout k fun key hmem hne heq => hk ⟨key, hmem, hne, heq⟩, hnone]
    rfl

end ZilkerSdk.Device.Database

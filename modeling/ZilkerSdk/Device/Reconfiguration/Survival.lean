import ZilkerSdk.Device.Reconfiguration.Yoink
import ZilkerSdk.Device.Database.Restart

/-!
# What a reconfiguration leaves of a device

`reconfigureDevice` takes the old device out of the database before the new one goes in, and
looks at neither result.  If the file of the old device has been deleted and the new device is
refused, nothing is left.  A removal that fails does no harm: the old device stays, and the new
one is refused because of it.
-/

namespace ZilkerSdk.Device.Reconfiguration

open Types Lib Device.Database Device.PairingRemoval Option

variable {db db' : JsonDatabase} {uuid : CString} {old new added : IcDevice}

/-! ## The property -/

def metadataItems (metadata : List IcDeviceMetadata) : List (Option CString × Option CString) :=
  metadata.map fun m => (m.id, m.value)

/-- The device has the metadata, the date added and the labels of the old one. -/
structure Preserves (old device : IcDevice) : Prop where
  metadata : metadataItems old.metadata ⊆ metadataItems device.metadata
  dateAdded : ∀ v, (some dateAddedId, v) ∈ resourceValues old.resources →
    (some dateAddedId, v) ∈ resourceValues device.resources
  endpoints : ∀ o ∈ old.endpoints, ∃ e ∈ device.endpoints, e.id = o.id ∧
    metadataItems o.metadata ⊆ metadataItems e.metadata ∧
    ∀ v, (some labelId, v) ∈ resourceValues o.resources →
      (some labelId, v) ∈ resourceValues e.resources

/-- A call has a result, after which there is still a device, with the customized data if the
result is true and the old one if it is false. -/
def Survives (uuid : CString) (old : IcDevice) (outcome : Option (JsonDatabase × Bool)) : Prop :=
  ∃ db' result entry, outcome = some (db', result) ∧
    hashMapGet db'.devices (stringKey uuid) = some entry ∧
    (result = true → Preserves old entry.device) ∧ (result = false → entry.device = old)

theorem Preserves.refl (device : IcDevice) : Preserves device device where
  metadata := List.Subset.refl _
  dateAdded _ hv := hv
  endpoints o ho := ⟨o, ho, rfl, List.Subset.refl _, fun _ hv => hv⟩

/-- The new device has a resource wherever the old one has a date added or a label. -/
def Carries (old new : IcDevice) : Prop :=
  (some dateAddedId ∈ resourceIds old.resources → some dateAddedId ∈ resourceIds new.resources) ∧
    ∀ o ∈ old.endpoints, some labelId ∈ resourceIds o.resources →
      ∀ e ∈ new.endpoints, e.id = o.id → some labelId ∈ resourceIds e.resources

instance (old new : IcDevice) : Decidable (Carries old new) := by
  delta Carries
  infer_instance

theorem preserves_of_carries (hy : Yoinked uuid old new added) (h : Carries old new) :
    Preserves old added where
  metadata := by
    rw [hy.metadata]
    exact List.Subset.refl _
  dateAdded v hv := hy.dateAdded v hv (h.1 (mem_resourceIds_of_value hv))
  endpoints o ho := by
    obtain ⟨e', he', hid, hmetadata, hlabel⟩ := hy.endpoints o ho
    refine ⟨e', he', hid, ?_, fun v hv => hlabel v hv ?_⟩
    · rw [hmetadata]
      exact List.Subset.refl _
    -- the endpoint is one of the new device, as far as the ids go
    · have hmem := List.mem_map_of_mem (f := endpointIds) he'
      rw [hy.endpointIds] at hmem
      obtain ⟨e, he, heq⟩ := List.mem_map.mp hmem
      obtain ⟨heid, hres⟩ := Prod.mk.inj heq
      rw [← hres]
      exact h.2 o ho (mem_resourceIds_of_value hv) e he (heid.trans hid)

variable {items : List (Key × Locator)} {k : Key} {now : CString} {saved : Bool}
  {descriptorMetadata : List (CString × CString)} {driver : DeviceDriver}

/-- In a device that can be indexed no two endpoints have one uri. -/
theorem endpoint_eq_of_uri {d : IcDevice} (hok : Indexable items (deviceObjects k d))
    {e e' : IcDeviceEndpoint} (he : e ∈ d.endpoints) (he' : e' ∈ d.endpoints) {uri : CString}
    (huri : e.uri = some uri) (huri' : e'.uri = some uri) : e = e' := by
  obtain ⟨i, hi⟩ := List.mem_iff_getElem?.mp he
  obtain ⟨j, hj⟩ := List.mem_iff_getElem?.mp he'
  have hat : (some uri, .endpoint k i) ∈ deviceObjects k d :=
    mem_deviceObjects.mpr ⟨rfl, by simp [uriAt, hi, huri]⟩
  have hat' : (some uri, .endpoint k j) ∈ deviceObjects k d :=
    mem_deviceObjects.mpr ⟨rfl, by simp [uriAt, hj, huri']⟩
  obtain ⟨-, rfl⟩ := Locator.endpoint.inj (hok.locator_unique hat hat')
  exact some.inj (hi.symm.trans hj)

theorem carries_of_preserves (hy : Yoinked uuid old new added)
    (hok : Indexable items (deviceObjects k added)) (h : Preserves old added) :
    Carries old new := by
  refine ⟨fun hold => ?_, fun o ho hlabel e he hid => ?_⟩
  · obtain ⟨v, hv⟩ := exists_value_of_mem_resourceIds hold
    rw [← hy.resourceIds]
    exact mem_resourceIds_of_value (h.dateAdded v hv)
  · obtain ⟨v, hv⟩ := exists_value_of_mem_resourceIds hlabel
    obtain ⟨x, hx, hxid, -, hxlabel⟩ := h.endpoints o ho
    have hmem := List.mem_map_of_mem (f := endpointIds) he
    rw [← hy.endpointIds] at hmem
    obtain ⟨e', he', heq⟩ := List.mem_map.mp hmem
    obtain ⟨heid, hres⟩ := Prod.mk.inj heq
    -- the endpoint with the label is this one: there is only one with the id
    obtain ⟨id, hid₁, huri₁⟩ := hy.endpointUris x hx
    obtain ⟨id', hid₂, huri₂⟩ := hy.endpointUris e' he'
    obtain rfl : id = id' := by
      apply some.inj
      rw [← hid₁, ← hid₂, hxid, heid, hid]
    obtain rfl := endpoint_eq_of_uri hok hx he' huri₁ huri₂
    rw [← hres]
    exact mem_resourceIds_of_value (hxlabel v hv)

/-- The added device has the data of the old one exactly when the new one has the resources. -/
theorem preserves_iff (hy : Yoinked uuid old new added)
    (hok : Indexable items (deviceObjects k added)) : Preserves old added ↔ Carries old new :=
  ⟨carries_of_preserves hy hok, preserves_of_carries hy⟩

/-! ## The new device is added -/

theorem addDevice_taken {entry : DeviceCacheEntry}
    (hentry : hashMapGet db.devices (stringKey uuid) = some entry)
    (huuid : added.uuid = some uuid) :
    jsonDatabaseAddDevice db (some added) saved =
      (removeDeviceURIEntries db.resourcesByUri added).map
        fun idx => ({ db with resourcesByUri := idx }, false) := by
  simp only [jsonDatabaseAddDevice, huuid, loadDeviceIntoCache, hashMapPut_of_taken hentry,
    destroyCacheEntry, ne_eq, not_true_eq_false, if_false]
  cases removeDeviceURIEntries db.resourcesByUri added with
  | none | some => rfl

theorem saved_of_addDevice (huuid : added.uuid = some uuid)
    (h : jsonDatabaseAddDevice db (some added) saved = some (db', true)) : saved = true := by
  simp only [jsonDatabaseAddDevice, huuid, bind_eq_bind, bind_eq_some_iff] at h
  obtain ⟨⟨db₁, ok⟩, -, h⟩ := h
  split at h
  · obtain ⟨⟨db₂, ok₂⟩, hsave, h⟩ := bind_eq_some_iff.mp h
    obtain ⟨-, -, -, ⟨-, hsaved, -⟩ | ⟨rfl, -⟩⟩ := saveDevice_cases hsave
    · exact hsaved
    · obtain ⟨_, -, ⟨⟩⟩ := bind_eq_some_iff.mp h
  · cases h

/-- A device whose uuid is free is stored exactly when its file is saved and its objects can be
indexed. -/
theorem addDevice_free_iff {P : IcDevice → Prop}
    (hfree : hashMapGet db.devices (stringKey uuid) = none) (huuid : added.uuid = some uuid) :
    (∃ db' ok entry, jsonDatabaseAddDevice db (some added) saved = some (db', ok) ∧
      hashMapGet db'.devices (stringKey uuid) = some entry ∧ P entry.device) ↔
    saved = true ∧ Indexable db.resourcesByUri.items (deviceObjects (stringKey uuid) added) ∧
      P added := by
  constructor
  · rintro ⟨db', ok, entry, hadd, hentry, hP⟩
    obtain ⟨-, -, hnull⟩ | ⟨d, uuid', hd, huuid', hcases⟩ := jsonDatabaseAddDevice_cases hadd
    · rw [bind_some, huuid] at hnull
      cases hnull
    cases hd
    cases huuid.symm.trans huuid'
    rcases hcases with ⟨rfl, hacc, -⟩ | ⟨-, hrej⟩
    · rw [hacc.devices, hashMapGet_put hacc.free, if_pos rfl] at hentry
      cases hentry
      have hnodup := db'.resourcesByUri.nodupKeys
      rw [hacc.index] at hnodup
      exact ⟨saved_of_addDevice huuid hadd, ⟨hacc.named, hnodup⟩, hP⟩
    · rw [hashMapGet_congr hrej.devices, hfree] at hentry
      cases hentry
  · rintro ⟨rfl, hok, hP⟩
    obtain ⟨db₁, hload, hacc, -⟩ := loadDeviceIntoCache_complete huuid hfree hok
    have hentry : hashMapGet db₁.devices (stringKey uuid) = some ⟨added, false, []⟩ := by
      rw [hacc.devices, hashMapGet_put hacc.free, if_pos rfl]
    refine ⟨{ db₁ with storage := storageSave db₁.storage uuid (.device added) }, true,
      ⟨added, false, []⟩, ?_, hentry, hP⟩
    simp [jsonDatabaseAddDevice, huuid, hload, saveDevice, hentry]

/-! ## The call as a whole -/

theorem yoinkEndpoints_defined (h : IndexInv db) (uuid : CString) (olds : List IcDeviceEndpoint)
    (es : List NewEndpoint) : ∃ outcome, yoinkEndpoints db uuid olds es = some outcome := by
  induction olds generalizing es with
  | nil => exact ⟨(es, true), rfl⟩
  | cons o olds ih =>
    obtain ⟨found, hfound⟩ := deviceServiceGetResourceById_defined h uuid o.id labelId
    simp only [yoinkEndpoints, hfound, bind_eq_bind, bind_some]
    split
    · exact ih _
    · exact ⟨_, rfl⟩

theorem makeNewDevice_uuid (h : makeNewDevice old driver descriptorMetadata now = some (some new)) :
    new.uuid = old.uuid := by
  unfold makeNewDevice at h
  split at h
  · cases h
  simp only [bind_eq_bind, bind_eq_some_iff] at h
  obtain ⟨_, -, _, -, _, -, _, -, h⟩ := h
  split at h
  · split at h
    · cases h
    · obtain ⟨created, hcreated, h⟩ := bind_eq_some_iff.mp h
      simp only [createDevice, bind_eq_bind, bind_eq_some_iff, some.injEq] at hcreated
      obtain ⟨_, huuid, _, -, _, -, rfl⟩ := hcreated
      simp only [configureNewDevice, bind_eq_bind, bind_eq_some_iff, some.injEq] at h
      obtain ⟨_, -, _, -, _, -, rfl⟩ := h
      simp only [Contents.fill_uuid, addCommonResources_uuid, huuid]
  · cases h

/-- The end of a reconfiguration: the old device is removed and the new one added. -/
def replaceDevice (db : JsonDatabase) (old new : IcDevice) (uuid : CString) (deleted saved : Bool) :
    Option (JsonDatabase × Bool) := do
  let (db₁, _) ← jsonDatabaseRemoveDeviceById db (some uuid) deleted
  let added ← replacement db uuid old new
  let (db₂, _) ← jsonDatabaseAddDevice db₁ (some added) saved
  some (db₂, true)

/-- A reconfiguration leaves the database alone, or replaces the device if every endpoint has its
match. -/
theorem reconfigureDevice_eq (hst : Stored db uuid old) (driver : DeviceDriver)
    (descriptorMetadata : List (CString × CString)) (now : CString) (deleted saved : Bool) :
    reconfigureDevice db old driver descriptorMetadata now deleted saved =
      (makeNewDevice old driver descriptorMetadata now).bind fun made =>
        match made with
        | none => some (db, false)
        | some new =>
          if EndpointsMatched old new then replaceDevice db old new uuid deleted saved
          else some (db, false) := by
  unfold reconfigureDevice
  apply congrArg
  funext made
  cases made with
  | none => rfl
  | some new =>
    obtain ⟨found, hfound⟩ := deviceServiceGetResourceById_defined hst.index uuid none dateAddedId
    obtain ⟨⟨es, result⟩, hes⟩ := yoinkEndpoints_defined hst.index uuid old.endpoints
      (new.endpoints.map .ofEndpoint)
    have hmatched := yoinkEndpoints_matched hes
    simp only [List.mem_map, exists_exists_and_eq_and] at hmatched
    have hiff : result = true ↔ EndpointsMatched old new := hmatched
    simp only [hst.uuid, yoinkCustomizedDeviceData, hfound, hes, replaceDevice, replacement,
      bind_eq_bind, bind_some, finalizeNewDevice, bind_assoc,
      Bool.false_eq_true, if_false, hiff]

/-! ## When the device survives -/

/-- The new device can take the place of the old one.  Its metadata have uris, without which it
cannot even be refused.  Where the old device is deleted, the new one is saved, no uri of it
collides with one that is left in the index, and it has resources for what was customized. -/
def Replaceable (db : JsonDatabase) (uuid : CString) (old new : IcDevice) (deleted saved : Bool) :
    Prop :=
  ∃ added, replacement db uuid old new = some added ∧
    (∀ e ∈ added.endpoints, ∀ m ∈ e.metadata, m.uri.isSome) ∧
    (deleted = true → saved = true ∧
      Indexable (db.resourcesByUri.items.filter fun item => item.1 ∉ deviceKeys old)
        (deviceObjects (stringKey uuid) added) ∧
      Carries old new)

instance (db : JsonDatabase) (uuid : CString) (old new : IcDevice) (deleted saved : Bool) :
    Decidable (Replaceable db uuid old new deleted saved) := by
  delta Replaceable
  infer_instance

theorem Stored.named (hst : Stored db uuid old) : Named (deviceObjects (stringKey uuid) old) := by
  intro o ho
  obtain ⟨hl, hu⟩ := mem_deviceObjects.mp ho
  exact isSome_iff_ne_none.mpr (hst.index.named o.1 o.2 (hst.holds hu hl))

theorem Stored.removed (hst : Stored db uuid old) : ∃ db₁,
    jsonDatabaseRemoveDeviceById db (some uuid) true = some (db₁, true) ∧
      hashMapGet db₁.devices (stringKey uuid) = none ∧
      db₁.resourcesByUri.items =
        db.resourcesByUri.items.filter fun item => item.1 ∉ deviceKeys old := by
  obtain ⟨entry, hentry, rfl⟩ := hst.found
  obtain ⟨idx, hidx⟩ := removeDeviceURIEntries_defined hst.named db.resourcesByUri
  refine ⟨⟨(hashMapDelete db.devices (stringKey uuid)).1, idx, db.systemProperties,
    (hashMapDelete db.storage uuid).1⟩, ?_, ?_, removeDeviceURIEntries_spec hidx⟩
  · simp only [jsonDatabaseRemoveDeviceById, hentry, if_true, deleteDevice, destroyCacheEntry,
      hst.index.alive _ entry hentry, ne_eq, not_true_eq_false, if_false, hidx,
      bind_eq_bind, bind_some]
  · rw [hashMapGet_delete, if_pos rfl]

/-- Metadata of the added device with uris is all that a refusal needs. -/
theorem removeDeviceURIEntries_added (hst : Stored db uuid old) (hy : Yoinked uuid old new added)
    (idx : Index) : (removeDeviceURIEntries idx added).isSome ↔
      ∀ e ∈ added.endpoints, ∀ m ∈ e.metadata, m.uri.isSome := by
  have hself : added.uri.isSome := isSome_iff_ne_none.mpr hy.uri
  have hendpoints : ∀ e ∈ added.endpoints, e.uri.isSome := by
    intro e he
    obtain ⟨id, -, huri⟩ := hy.endpointUris e he
    rw [huri]
    rfl
  have hmetadata : ∀ m ∈ added.metadata, m.uri.isSome := by
    rw [hy.metadata]
    intro m hm
    obtain ⟨j, hj⟩ := List.mem_iff_getElem?.mp hm
    exact hst.named (m.uri, .metadata (stringKey uuid) none j)
      (mem_deviceObjects.mpr ⟨rfl, by simp [uriAt, hj]⟩)
  rw [removeDeviceURIEntries_isSome_iff]
  constructor
  · intro h e he
    exact (h hself).1 e he (hendpoints e he)
  · intro h _
    exact ⟨fun e he _ => h e he, hmetadata⟩

theorem metadata_named (hok : Indexable items (deviceObjects k added)) :
    ∀ e ∈ added.endpoints, ∀ m ∈ e.metadata, m.uri.isSome := by
  intro e he m hm
  obtain ⟨i, hi⟩ := List.mem_iff_getElem?.mp he
  obtain ⟨j, hj⟩ := List.mem_iff_getElem?.mp hm
  exact hok.1 (m.uri, .metadata k (some i) j) (mem_deviceObjects.mpr ⟨rfl, by simp [uriAt, hi, hj]⟩)

theorem survives_replaceDevice (uuid : CString) (old : IcDevice) {deleted : Bool} :
    Survives uuid old (replaceDevice db old new uuid deleted saved) ↔
      ∃ db₁ ok₁ added db₂ ok₂ entry,
        jsonDatabaseRemoveDeviceById db (some uuid) deleted = some (db₁, ok₁) ∧
        replacement db uuid old new = some added ∧
        jsonDatabaseAddDevice db₁ (some added) saved = some (db₂, ok₂) ∧
        hashMapGet db₂.devices (stringKey uuid) = some entry ∧ Preserves old entry.device := by
  constructor
  · rintro ⟨db', result, entry, h, hentry, hpreserves, -⟩
    simp only [replaceDevice, bind_eq_bind, bind_eq_some_iff] at h
    obtain ⟨⟨db₁, ok₁⟩, hremove, added, hadded, ⟨db₂, ok₂⟩, hadd, ⟨⟩⟩ := h
    exact ⟨db₁, ok₁, added, db₂, ok₂, entry, hremove, hadded, hadd, hentry, hpreserves rfl⟩
  · rintro ⟨db₁, ok₁, added, db₂, ok₂, entry, hremove, hadded, hadd, hentry, hpreserves⟩
    refine ⟨db₂, true, entry, ?_, hentry, fun _ => hpreserves, (nomatch ·)⟩
    simp [replaceDevice, hremove, hadded, hadd]

theorem replaceDevice_survives_iff (hst : Stored db uuid old) (huuid : new.uuid = some uuid)
    (hmatched : EndpointsMatched old new) (deleted saved : Bool) :
    Survives uuid old (replaceDevice db old new uuid deleted saved) ↔
      Replaceable db uuid old new deleted saved := by
  rw [survives_replaceDevice]
  cases deleted with
  | false =>
    -- the old device stays, and the new one is refused
    obtain ⟨entry₀, hentry₀, hold⟩ := hst.found
    have hremove : jsonDatabaseRemoveDeviceById db (some uuid) false = some (db, false) := by
      simp [jsonDatabaseRemoveDeviceById, hentry₀]
    constructor
    · rintro ⟨db₁, ok₁, added, db₂, ok₂, entry, hremove', hadded, hadd, -, -⟩
      cases hremove.symm.trans hremove'
      refine ⟨added, hadded, ?_, by simp⟩
      rw [addDevice_taken hentry₀ ((replacement_uuid hadded).trans huuid)] at hadd
      obtain ⟨idx, hidx, -⟩ := map_eq_some_iff.mp hadd
      rw [← removeDeviceURIEntries_added hst (replacement_yoinked hst huuid hmatched hadded)
        db.resourcesByUri, hidx]
      rfl
    · rintro ⟨added, hadded, hnamed, -⟩
      rw [← removeDeviceURIEntries_added hst (replacement_yoinked hst huuid hmatched hadded)
        db.resourcesByUri] at hnamed
      obtain ⟨idx, hidx⟩ := isSome_iff_exists.mp hnamed
      refine ⟨db, false, added, { db with resourcesByUri := idx }, false, entry₀, hremove, hadded,
        ?_, hentry₀, ?_⟩
      · rw [addDevice_taken hentry₀ ((replacement_uuid hadded).trans huuid), hidx]
        rfl
      · rw [hold]
        exact .refl old
  | true =>
    obtain ⟨db₁, hremove, hfree, hitems⟩ := hst.removed
    constructor
    · rintro ⟨db₁', ok₁, added, db₂, ok₂, entry, hremove', hadded, hadd, hentry, hpreserves⟩
      cases hremove.symm.trans hremove'
      obtain ⟨hsaved, hok, hkept⟩ := (addDevice_free_iff hfree
        ((replacement_uuid hadded).trans huuid)).mp ⟨db₂, ok₂, entry, hadd, hentry, hpreserves⟩
      rw [hitems] at hok
      exact ⟨added, hadded, metadata_named hok, fun _ => ⟨hsaved, hok,
        (preserves_iff (replacement_yoinked hst huuid hmatched hadded) hok).mp hkept⟩⟩
    · rintro ⟨added, hadded, -, hdeleted⟩
      obtain ⟨hsaved, hok, hcarries⟩ := hdeleted rfl
      have hkept := (preserves_iff (replacement_yoinked hst huuid hmatched hadded) hok).mpr hcarries
      rw [← hitems] at hok
      obtain ⟨db₂, ok₂, entry, hadd, hentry, hpreserves⟩ := (addDevice_free_iff hfree
        ((replacement_uuid hadded).trans huuid)).mpr ⟨hsaved, hok, hkept⟩
      exact ⟨db₁, true, added, db₂, ok₂, entry, hremove, hadded, hadd, hentry, hpreserves⟩

theorem Stored.survives_unchanged (hst : Stored db uuid old) :
    Survives uuid old (some (db, false)) := by
  obtain ⟨entry, hentry, hold⟩ := hst.found
  exact ⟨db, false, entry, rfl, hentry, (nomatch ·), fun _ => hold⟩

def porchResource (base id : String) (value : String) : IcDeviceResource where
  id := some id.toList
  uri := some (base.toList ++ "/r/".toList ++ id.toList)
  endpointId := none
  deviceUuid := some "porch".toList
  value := some value.toList
  type := some "com.icontrol.string".toList
  mode := resourceModeReadable
  cachingPolicy := .always
  dateOfLastSyncMillis := 0

def porchEndpoint : IcDeviceEndpoint where
  id := some ['1']
  uri := some "/porch/ep/1".toList
  profile := some "light".toList
  profileVersion := 1
  deviceUuid := some "porch".toList
  enabled := true
  resources := [porchResource "/porch/ep/1" "label" "Porch"]
  metadata := [⟨some "zone".toList, some "/porch/ep/1/m/zone".toList, some ['1'],
    some "porch".toList, some "outside".toList⟩]

/-- A light with a label and some metadata. -/
def porchLight : IcDevice where
  uuid := some "porch".toList
  deviceClass := some "light".toList
  deviceClassVersion := 1
  uri := some "/porch".toList
  managingDeviceDriver := some "driver".toList
  endpoints := [porchEndpoint]
  resources := [porchResource "/porch" "manufacturer" "acme", porchResource "/porch" "model" "l1",
    porchResource "/porch" "hardwareVersion" "1", porchResource "/porch" "firmwareVersion" "1",
    porchResource "/porch" "dateAdded" "1577836800000"]
  metadata := []

/-- The database the light has been added to. -/
def porchDatabase : JsonDatabase :=
  ((jsonDatabaseAddDevice (emptyDatabase true) (some porchLight) true).map Prod.fst).getD
    (emptyDatabase true)

/-- A driver that gives a light an endpoint without values. -/
def porchDriver : DeviceDriver where
  driverName := some "driver".toList
  getDeviceClassVersion := some fun _ => some 2
  configureDevice _ := some ⟨[{ porchEndpoint with
    resources := [porchResource "/porch/ep/1" "label" ""], metadata := [] }], [], []⟩
  fetchInitialResourceValues device := some ⟨device.endpoints, device.resources, device.metadata⟩
  registerResources device := some ⟨device.endpoints, device.resources, device.metadata⟩

theorem porchDatabase_added :
    jsonDatabaseAddDevice (emptyDatabase true) (some porchLight) true =
      some (porchDatabase, true) := by
  have hok : (jsonDatabaseAddDevice (emptyDatabase true) (some porchLight) true).map Prod.snd =
      some true := by
    decide +kernel
  obtain ⟨⟨db, ok⟩, hadd, rfl⟩ := map_eq_some_iff.mp hok
  have hdb : porchDatabase = db := by simp [porchDatabase, hadd]
  rw [hadd, hdb]

theorem porchDatabase_stored : Stored porchDatabase "porch".toList porchLight where
  index := step_indexInv (emptyDatabase true) (.addDevice (some porchLight) true) porchDatabase true
    (emptyDatabase_indexInv true) (by decide +kernel) porchDatabase_added
  found := ⟨⟨porchLight, false, []⟩, by decide +kernel, rfl⟩
  uuid := rfl
  uris := by decide +kernel

end ZilkerSdk.Device.Reconfiguration

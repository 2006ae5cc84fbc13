import ZilkerSdk.Device.Database.Operations

/-!
# What the operations of the device database do

One lemma for each function of `Operations` says everything a call can do to the
devices, the index and the storage.  The invariants of the later modules are
derived from these lemmas and do not unfold the functions again.
-/

namespace ZilkerSdk.Device.Database

open Types Lib Option

variable {db db' : JsonDatabase} {k : Key} {saved ok : Bool}

/-- A call that refuses its arguments. -/
theorem of_refused (h : some (db, false) = some (db', ok)) : ok = false ∧ db' = db := by
  cases h
  exact ⟨rfl, rfl⟩

/-- The arguments of a call on an object that has a uri. -/
theorem of_argument {α : Type} {arg : Option α} {uriOf : α → Option CString} {a : α} {uri : CString}
    (h : (arg.bind fun a => (uriOf a).map fun uri => (a, uri)) = some (a, uri)) :
    arg = some a ∧ uriOf a = some uri := by
  obtain ⟨a, rfl, h⟩ := bind_eq_some_iff.mp h
  obtain ⟨uri, huri, ⟨⟩⟩ := map_eq_some_iff.mp h
  exact ⟨rfl, huri⟩

/-! ## Saving and deleting -/

@[simp] theorem hashMapGet_modifyEntry (db : JsonDatabase) (k : Key)
    (f : DeviceCacheEntry → DeviceCacheEntry) (k' : Key) :
    hashMapGet (modifyEntry db k f).devices k' =
      if k' = k then (hashMapGet db.devices k').map f else hashMapGet db.devices k' :=
  hashMapGet_modify _ _ _ _

theorem saveDevice_cases (h : saveDevice db k saved = some (db', ok)) :
    ∃ entry, hashMapGet db.devices k = some entry ∧ entry.destroyedEndpoints = [] ∧
      ((ok = true ∧ saved = true ∧ ∃ uuid, entry.device.uuid = some uuid ∧
          db' = { db with storage := storageSave db.storage uuid (.device entry.device) }) ∨
        (ok = false ∧ db' = db ∧ (saved = false ∨ entry.device.uuid = none))) := by
  simp only [saveDevice, bind_eq_bind, bind_eq_some_iff] at h
  obtain ⟨entry, hentry, h⟩ := h
  obtain ⟨hdestroyed, h⟩ := ite_none_left_eq_some.mp h
  refine ⟨entry, hentry, not_not.mp hdestroyed, ?_⟩
  split at h
  next huuid =>
    obtain ⟨rfl, rfl⟩ := of_refused h
    exact .inr ⟨rfl, rfl, .inr huuid⟩
  next uuid huuid =>
    cases saved with
    | true =>
      cases h
      exact .inl ⟨rfl, rfl, uuid, huuid, rfl⟩
    | false =>
      obtain ⟨rfl, rfl⟩ := of_refused h
      exact .inr ⟨rfl, rfl, .inl rfl⟩

variable {entry : DeviceCacheEntry} {idx idx' : Index} {d d' : IcDevice} {uri : CString}
  {endpoint : Option Nat} {f : IcDevice → IcDevice} {i j : Nat} {e : IcDeviceEndpoint}
  {r : IcDeviceResource} {resource : Option IcDeviceResource} {now : UInt64}

theorem deleteDevice_spec (h : deleteDevice db k = some db')
    (hget : hashMapGet db.devices k = some entry) :
    entry.destroyedEndpoints = [] ∧ db'.devices = (hashMapDelete db.devices k).1 ∧
      (db'.resourcesByUri.items =
        db.resourcesByUri.items.filter fun item => item.1 ∉ deviceKeys entry.device) ∧
      db'.storage = db.storage ∧ db'.systemProperties = db.systemProperties := by
  simp only [deleteDevice, hget, destroyCacheEntry, bind_eq_bind, bind_eq_some_iff] at h
  obtain ⟨idx, hidx, ⟨⟩⟩ := h
  obtain ⟨hdestroyed, hidx⟩ := ite_none_left_eq_some.mp hidx
  exact ⟨not_not.mp hdestroyed, rfl, removeDeviceURIEntries_spec hidx, rfl, rfl⟩

/-! ## Adding a device -/

/-- The device `d` is now stored under `k` and all its objects are indexed. -/
structure Accepted (db db' : JsonDatabase) (k : Key) (d : IcDevice) : Prop where
  free : hashMapGet db.devices k = none
  named : Named (deviceObjects k d)
  devices : db'.devices = (hashMapPut db.devices k ⟨d, false, []⟩).1
  index : db'.resourcesByUri.items = db.resourcesByUri.items ++ entriesOf (deviceObjects k d)
  keys : ∀ item ∈ entriesOf (deviceObjects k d), item.1 ∈ deviceKeys d
  systemProperties : db'.systemProperties = db.systemProperties

theorem Accepted.lookup {d : IcDevice} (h : Accepted db db' k d) (k' : Key) :
    hashMapGet db'.devices k' =
      if k' = k then some ⟨d, false, []⟩ else hashMapGet db.devices k' := by
  rw [h.devices, hashMapGet_put h.free]

/-- The device `d` has been refused: the devices are as before, and the index has
lost every entry with a key of `d`. -/
structure Rejected (db db' : JsonDatabase) (d : IcDevice) : Prop where
  devices : db'.devices.items = db.devices.items
  index : db'.resourcesByUri.items =
    db.resourcesByUri.items.filter fun item => item.1 ∉ deviceKeys d
  storage : db'.storage = db.storage
  systemProperties : db'.systemProperties = db.systemProperties

theorem addDeviceURIEntries_keys (h : addDeviceURIEntries k d idx = some (idx', true)) :
    ∀ item ∈ entriesOf (deviceObjects k d), item.1 ∈ deviceKeys d := by
  simp only [addDeviceURIEntries, bind_eq_bind, bind_eq_some_iff] at h
  obtain ⟨⟨idx₁, ok₁⟩, h₁, h₂⟩ := h
  cases ok₁ with
  | true =>
    have hindexes := insertDeviceURIEntries_indexes k d
    obtain ⟨added, hitems, hkeys⟩ := hindexes.stop h₁
    rw [(hindexes.success h₁).2, List.append_cancel_left_eq] at hitems
    exact hitems ▸ hkeys
  | false => obtain ⟨idx₂, -, ⟨⟩⟩ := bind_eq_some_iff.mp h₂

theorem rejected_of_deleteDevice {db₁ : JsonDatabase} (h : deleteDevice db₁ k = some db')
    (hfree : hashMapGet db.devices k = none)
    (hdevices : db₁.devices = (hashMapPut db.devices k ⟨d, false, []⟩).1)
    (hindex : (db₁.resourcesByUri.items.filter fun item => item.1 ∉ deviceKeys d) =
      db.resourcesByUri.items.filter fun item => item.1 ∉ deviceKeys d)
    (hstorage : db₁.storage = db.storage) (hprops : db₁.systemProperties = db.systemProperties) :
    Rejected db db' d := by
  have hget : hashMapGet db₁.devices k = some ⟨d, false, []⟩ := by
    rw [hdevices, hashMapGet_put hfree, if_pos rfl]
  obtain ⟨-, hdev, hidx, hst, hsp⟩ := deleteDevice_spec h hget
  refine ⟨?_, hidx.trans hindex, hst.trans hstorage, hsp.trans hprops⟩
  rw [hdev, hdevices]
  exact items_delete_put _ hfree

theorem loadDeviceIntoCache_cases {uuid : CString} (huuid : d.uuid = some uuid)
    (h : loadDeviceIntoCache db d = some (db', ok)) :
    (ok = true ∧ Accepted db db' (stringKey uuid) d ∧ db'.storage = db.storage) ∨
      (ok = false ∧ Rejected db db' d) := by
  simp only [loadDeviceIntoCache, huuid] at h
  cases hget : hashMapGet db.devices (stringKey uuid) with
  | some old =>
    -- the uuid is taken: the new entry is destroyed, by uri
    simp only [hashMapPut_of_taken hget, destroyCacheEntry, ne_eq, not_true_eq_false, if_false,
      bind_eq_bind, bind_eq_some_iff, some.injEq, Prod.mk.injEq] at h
    obtain ⟨idx, hidx, rfl, rfl⟩ := h
    exact .inr ⟨rfl, rfl, removeDeviceURIEntries_spec hidx, rfl, rfl⟩
  | none =>
    have hput : hashMapPut db.devices (stringKey uuid) (⟨d, false, []⟩ : DeviceCacheEntry) =
        ((hashMapPut db.devices (stringKey uuid) ⟨d, false, []⟩).1, true) :=
      Prod.ext rfl ((hashMapPut_snd _ _ _).mpr hget)
    rw [hput] at h
    simp only [bind_eq_bind, bind_eq_some_iff] at h
    obtain ⟨⟨idx, ok₁⟩, hadd, h⟩ := h
    -- the uuid is free, and the objects are indexed or refused
    obtain ⟨rfl, hnamed, hitems⟩ | ⟨rfl, hitems⟩ := addDeviceURIEntries_cases hadd
    · cases h
      exact .inl ⟨rfl, ⟨hget, hnamed, rfl, hitems, addDeviceURIEntries_keys hadd, rfl⟩, rfl⟩
    · simp only [Bool.false_eq_true, if_false, bind_eq_some_iff, some.injEq, Prod.mk.injEq] at h
      obtain ⟨db₂, hdel, rfl, rfl⟩ := h
      refine .inr ⟨rfl, rejected_of_deleteDevice hdel hget rfl ?_ rfl rfl⟩
      rw [hitems, List.filter_filter]
      simp

/-- Adding a device stores and indexes it, or rejects it. -/
theorem jsonDatabaseAddDevice_cases {device : Option IcDevice}
    (h : jsonDatabaseAddDevice db device saved = some (db', ok)) :
    (ok = false ∧ db' = db ∧ device.bind (·.uuid) = none) ∨
      ∃ d uuid, device = some d ∧ d.uuid = some uuid ∧
        ((ok = true ∧ Accepted db db' (stringKey uuid) d ∧
            db'.storage = storageSave db.storage uuid (.device d)) ∨
          (ok = false ∧ Rejected db db' d)) := by
  revert h
  fun_cases jsonDatabaseAddDevice db device saved <;> intro h
  case case1 =>
    obtain ⟨rfl, rfl⟩ := of_refused h
    exact .inl ⟨rfl, rfl, rfl⟩
  case case2 huuid =>
    obtain ⟨rfl, rfl⟩ := of_refused h
    exact .inl ⟨rfl, rfl, huuid⟩
  case case3 d uuid huuid =>
    refine .inr ⟨d, uuid, rfl, huuid, ?_⟩
    simp only [bind_eq_bind, bind_eq_some_iff] at h
    obtain ⟨⟨db₁, ok₁⟩, hload, h⟩ := h
    -- the cache has taken the device or not
    obtain ⟨rfl, hacc, hst⟩ | ⟨rfl, hrej⟩ := loadDeviceIntoCache_cases huuid hload
    · have hget : hashMapGet db₁.devices (stringKey uuid) = some ⟨d, false, []⟩ := by
        rw [hacc.lookup, if_pos rfl]
      simp only [if_true, bind_eq_some_iff] at h
      obtain ⟨⟨db₂, ok₂⟩, hsave, h⟩ := h
      obtain ⟨entry, hentry, -, hcases⟩ := saveDevice_cases hsave
      cases hget.symm.trans hentry
      obtain ⟨rfl, -, uuid', huuid', rfl⟩ | ⟨rfl, rfl, -⟩ := hcases
      · cases huuid.symm.trans huuid'
        cases h
        exact .inl ⟨rfl, { hacc with }, by rw [hst]⟩
      · simp only [Bool.false_eq_true, if_false, bind_eq_some_iff, some.injEq, Prod.mk.injEq] at h
        obtain ⟨db₃, hdel, rfl, rfl⟩ := h
        refine .inr ⟨rfl, rejected_of_deleteDevice hdel hacc.free hacc.devices ?_ hst
          hacc.systemProperties⟩
        -- the entries just appended have keys of the device, so they go first
        have hnone : ((entriesOf (deviceObjects (stringKey uuid) d)).filter
            fun item => item.1 ∉ deviceKeys d) = [] :=
          List.filter_eq_nil_iff.mpr fun a ha => by simpa using hacc.keys a ha
        rw [hacc.index, List.filter_append, hnone, List.append_nil]
    · obtain ⟨rfl, rfl⟩ := of_refused h
      exact .inr ⟨rfl, hrej⟩

/-! ## Adding an endpoint -/

/-- The entry under `k` now holds the device `d'` and the mark `dirty`; no other
entry has changed. -/
structure Replaced (db db' : JsonDatabase) (k : Key) (entry : DeviceCacheEntry) (d' : IcDevice)
    (dirty : Bool) : Prop where
  found : hashMapGet db.devices k = some entry
  lookup : ∀ k', hashMapGet db'.devices k' =
    if k' = k then some { entry with device := d', dirty := dirty } else hashMapGet db.devices k'
  systemProperties : db'.systemProperties = db.systemProperties

theorem replaced_modifyDevice (hentry : hashMapGet db.devices k = some entry)
    (f : IcDevice → IcDevice) :
    Replaced db (modifyDevice db k f) k entry (f entry.device) entry.dirty := by
  refine ⟨hentry, fun k' => ?_, rfl⟩
  by_cases hk : k' = k
  · subst hk
    simp [modifyDevice, hentry]
  · simp [modifyDevice, hk]

theorem Replaced.mark {dirty : Bool} (h : Replaced db db' k entry d' dirty) (mark : Bool) :
    Replaced db (modifyEntry db' k fun e => { e with dirty := mark }) k entry d' mark := by
  refine ⟨h.found, fun k' => ?_, h.systemProperties⟩
  rw [hashMapGet_modifyEntry, h.lookup]
  split <;> rfl

def withNewEndpoint (e : IcDeviceEndpoint) (d : IcDevice) : IcDevice :=
  { d with endpoints := d.endpoints ++ [e] }

/-- Adding an endpoint appends and indexes it, without touching the dirty mark,
or fails to index it and leaves it destroyed in the list. -/
theorem jsonDatabaseAddEndpoint_cases {endpoint : Option IcDeviceEndpoint}
    (h : jsonDatabaseAddEndpoint db endpoint saved = some (db', ok)) :
    (ok = false ∧ db' = db ∧ ∀ e uuid, endpoint = some e → e.deviceUuid = some uuid →
        e.id ≠ none → hashMapGet db.devices (stringKey uuid) = none) ∨
      ∃ e uuid entry, endpoint = some e ∧ e.deviceUuid = some uuid ∧ e.id ≠ none ∧
        hashMapGet db.devices (stringKey uuid) = some entry ∧
        ((Named (endpointObjects (stringKey uuid) (e, entry.device.endpoints.length)) ∧
            db'.resourcesByUri.items = db.resourcesByUri.items ++
              entriesOf (endpointObjects (stringKey uuid) (e, entry.device.endpoints.length)) ∧
            Replaced db db' (stringKey uuid) entry (withNewEndpoint e entry.device) entry.dirty ∧
            ((ok = true ∧ ∃ uuid', entry.device.uuid = some uuid' ∧ db'.storage =
                storageSave db.storage uuid' (.device (withNewEndpoint e entry.device))) ∨
              (ok = false ∧ db'.storage = db.storage ∧
                (saved = false ∨ entry.device.uuid = none)))) ∨
          (ok = false ∧ ∃ entry', hashMapGet db'.devices (stringKey uuid) = some entry' ∧
            entry'.destroyedEndpoints ≠ [] ∧
            addEndpointURIEntries (stringKey uuid) (e, entry.device.endpoints.length)
              db.resourcesByUri = some (db'.resourcesByUri, false))) := by
  revert h
  fun_cases jsonDatabaseAddEndpoint db endpoint saved <;> intro h
  case case1 =>
    obtain ⟨rfl, rfl⟩ := of_refused h
    exact .inl ⟨rfl, rfl, by simp⟩
  case case2 e uuid id hid huuid _ hnone =>
    obtain ⟨rfl, rfl⟩ := of_refused h
    refine .inl ⟨rfl, rfl, ?_⟩
    rintro e' uuid' ⟨⟩ huuid' -
    cases huuid.symm.trans huuid'
    exact hnone
  case case3 e uuid id hid huuid k entry hentry i db₁ =>
    subst db₁ i k
    refine .inr ⟨e, uuid, entry, rfl, huuid, by simp [hid], hentry, ?_⟩
    simp only [bind_eq_bind, bind_eq_some_iff] at h
    obtain ⟨⟨idx, ok₁⟩, hadd, h⟩ := h
    -- the endpoint is in the list already when the outcome of indexing is known
    cases ok₁ with
    | false =>
      cases h
      refine .inr ⟨rfl, ⟨withNewEndpoint e entry.device, entry.dirty,
        entry.device.endpoints.length :: entry.destroyedEndpoints⟩, ?_, by simp, hadd⟩
      simp [modifyDevice, withNewEndpoint, hentry]
    | true =>
      obtain ⟨hnamed, hitems⟩ := (addEndpointURIEntries_indexes _ _).success hadd
      obtain ⟨entry', hentry', -, hcases⟩ := saveDevice_cases h
      simp only [modifyDevice, hashMapGet_modifyEntry, if_true, hentry, map_some,
        some.injEq] at hentry'
      subst hentry'
      have hrep := replaced_modifyDevice hentry (withNewEndpoint e)
      obtain ⟨rfl, -, uuid', huuid', rfl⟩ | ⟨rfl, rfl, hwhy⟩ := hcases
      · exact .inl ⟨hnamed, hitems, ⟨hentry, hrep.lookup, rfl⟩, .inl ⟨rfl, uuid', huuid', rfl⟩⟩
      · exact .inl ⟨hnamed, hitems, ⟨hentry, hrep.lookup, rfl⟩, .inr ⟨rfl, rfl, hwhy⟩⟩
  case case4 e hargs =>
    obtain ⟨rfl, rfl⟩ := of_refused h
    refine .inl ⟨rfl, rfl, ?_⟩
    rintro e' uuid ⟨⟩ huuid hid
    obtain ⟨id, hid⟩ := ne_none_iff_exists'.mp hid
    exact absurd hid (hargs uuid id huuid)

/-! ## Changing a stored device -/

/-- The entry under `k` now holds the device `d'`, and either is dirty or has
been stored. -/
def Updated (db db' : JsonDatabase) (k : Key) (entry : DeviceCacheEntry) (d' : IcDevice) : Prop :=
  (Replaced db db' k entry d' true ∧ db'.storage = db.storage) ∨
    (Replaced db db' k entry d' false ∧ ∃ uuid, d'.uuid = some uuid ∧
      db'.storage = storageSave db.storage uuid (.device d'))

theorem Updated.replaced (h : Updated db db' k entry d') :
    ∃ dirty, Replaced db db' k entry d' dirty :=
  h.elim (⟨true, ·.1⟩) (⟨false, ·.1⟩)

theorem Updated.found (h : Updated db db' k entry d') :
    hashMapGet db.devices k = some entry := h.elim (·.1.found) (·.1.found)

theorem flushDevice_spec
    (h : flushDevice (modifyDevice { db with resourcesByUri := idx } k f) k saved =
      some (db', ok)) :
    ∃ entry, Updated db db' k entry (f entry.device) ∧ db'.resourcesByUri = idx := by
  simp only [flushDevice, bind_eq_bind, bind_eq_some_iff] at h
  obtain ⟨⟨db₁, ok₁⟩, hsave, h⟩ := h
  obtain ⟨entry₁, hentry₁, -, hcases⟩ := saveDevice_cases hsave
  simp only [modifyDevice, hashMapGet_modifyEntry, if_true, map_map, map_eq_some_iff] at hentry₁
  obtain ⟨entry, hentry, rfl⟩ := hentry₁
  refine ⟨entry, ?_⟩
  -- the mark is set before the save, so a save that fails leaves the entry dirty
  have hdirty := (replaced_modifyDevice hentry f).mark true
  obtain ⟨rfl, -, uuid, huuid, rfl⟩ | ⟨rfl, rfl, -⟩ := hcases
  · cases h
    exact ⟨.inr ⟨⟨hentry, (hdirty.mark false).lookup, rfl⟩, uuid, huuid, rfl⟩, rfl⟩
  · obtain ⟨rfl, rfl⟩ := of_refused h
    exact ⟨.inl ⟨⟨hentry, hdirty.lookup, rfl⟩, rfl⟩, rfl⟩

theorem flushDevice_modify_spec (h : flushDevice (modifyDevice db k f) k saved = some (db', ok)) :
    ∃ entry, Updated db db' k entry (f entry.device) ∧
      db'.resourcesByUri = db.resourcesByUri :=
  @flushDevice_spec db db' k saved ok db.resourcesByUri f h

theorem markDirty_spec (hentry : hashMapGet db.devices k = some entry) :
    Updated db (modifyEntry (modifyDevice db k f) k fun e => { e with dirty := true }) k entry
      (f entry.device) :=
  .inl ⟨(replaced_modifyDevice hentry f).mark true, rfl⟩

theorem derefEndpoint_eq_some (h : derefEndpoint db k i = some e) :
    ∃ entry, hashMapGet db.devices k = some entry ∧ entry.device.endpoints[i]? = some e := by
  simp only [derefEndpoint, bind_eq_bind, bind_eq_some_iff] at h
  obtain ⟨entry, hentry, h⟩ := h
  exact ⟨entry, hentry, (ite_none_left_eq_some.mp h).2⟩

/-- The new contents of an endpoint whose profile version changes. -/
def renewed (e : IcDeviceEndpoint) (x : IcDeviceEndpoint) : IcDeviceEndpoint :=
  { x with enabled := e.enabled, resources := e.resources, profileVersion := e.profileVersion }

/-- Saving an endpoint whose uri leads to an endpoint sets its enabled flag and, when the profile
version changes, replaces its resources. -/
theorem jsonDatabaseSaveEndpoint_cases {endpoint : Option IcDeviceEndpoint}
    (h : jsonDatabaseSaveEndpoint db endpoint saved = some (db', ok)) :
    (ok = false ∧ db' = db) ∨
      ∃ e uri i entry old, endpoint = some e ∧ e.uri = some uri ∧
        ∃ k, hashMapGet db.resourcesByUri (stringKey uri) = some (.endpoint k i) ∧
        hashMapGet db.devices k = some entry ∧ entry.device.endpoints[i]? = some old ∧
        ((old.profileVersion = e.profileVersion ∧ db'.resourcesByUri = db.resourcesByUri ∧
            Updated db db' k entry
              (withEndpoint i (fun x => { x with enabled := e.enabled }) entry.device)) ∨
          (old.profileVersion ≠ e.profileVersion ∧
            replaceEndpointResources db.resourcesByUri k i old.resources e.resources =
              some db'.resourcesByUri ∧
            Updated db db' k entry (withEndpoint i (renewed e) entry.device))) := by
  revert h
  fun_cases jsonDatabaseSaveEndpoint db endpoint saved <;> intro h
  case case2 e uri harg k i hloc =>
    obtain ⟨rfl, huri⟩ := of_argument harg
    simp only [bind_eq_bind, bind_eq_some_iff] at h
    obtain ⟨old, hold, h⟩ := h
    obtain ⟨entry, hentry, hat⟩ := derefEndpoint_eq_some hold
    refine .inr ⟨e, uri, i, entry, old, rfl, huri, k, hloc, hentry, hat, ?_⟩
    split at h
    next hver =>
      obtain ⟨idx, hidx, h⟩ := bind_eq_some_iff.mp (ite_none_left_eq_some.mp h).2
      -- the two changes to the endpoint are one
      have hone : modifyDevice { modifyDevice db k (withEndpoint i fun x =>
            { x with enabled := e.enabled }) with resourcesByUri := idx } k
            (withEndpoint i fun x => { x with resources := e.resources,
                                              profileVersion := e.profileVersion }) =
          modifyDevice { db with resourcesByUri := idx } k (withEndpoint i (renewed e)) := by
        simp only [modifyDevice, modifyEntry, hashMapModify_modify]
        congr 2
        funext x
        simp only [Function.comp, withEndpoint, List.modify_modify_eq]
        rfl
      rw [hone] at h
      obtain ⟨entry', hupd, rfl⟩ := flushDevice_spec h
      cases hentry.symm.trans hupd.found
      exact .inr ⟨hver, hidx, hupd⟩
    next hver =>
      obtain ⟨entry', hupd, hidx⟩ := flushDevice_modify_spec h
      cases hentry.symm.trans hupd.found
      exact .inl ⟨not_not.mp hver, hidx, hupd⟩
  all_goals exact .inl (of_refused h)

/-- An operation on a stored resource changes the resource, but not its uri. -/
def ResourceUpdated (db db' : JsonDatabase) : Prop :=
  ∃ k endpoint j entry f, (∀ r : IcDeviceResource, (f r).uri = r.uri) ∧
    db'.resourcesByUri = db.resourcesByUri ∧
    Updated db db' k entry (withResource endpoint j f entry.device)

theorem derefResource_entry (h : derefResource db k endpoint j = some r) :
    ∃ entry, hashMapGet db.devices k = some entry := by
  cases endpoint with
  | none =>
    obtain ⟨entry, hentry, -⟩ := bind_eq_some_iff.mp h
    exact ⟨entry, hentry⟩
  | some i =>
    obtain ⟨e, he, -⟩ := bind_eq_some_iff.mp h
    obtain ⟨entry, hentry, -⟩ := derefEndpoint_eq_some he
    exact ⟨entry, hentry⟩

/-- What saving `r` makes of a stored resource. -/
def savedResource (r x : IcDeviceResource) : IcDeviceResource :=
  { x with value := r.value, cachingPolicy := r.cachingPolicy, mode := r.mode,
           dateOfLastSyncMillis := r.dateOfLastSyncMillis }

theorem jsonDatabaseSaveResource_effect (huri : r.uri = some uri)
    (hloc : hashMapGet db.resourcesByUri (stringKey uri) = some (.resource k endpoint j))
    (h : jsonDatabaseSaveResource db (some r) saved = some (db', ok)) :
    db'.resourcesByUri = db.resourcesByUri ∧
      ∃ entry, Updated db db' k entry (withResource endpoint j (savedResource r) entry.device) := by
  simp only [jsonDatabaseSaveResource, bind_some, huri, map_some, hloc,
    bind_eq_bind, bind_eq_some_iff] at h
  obtain ⟨x, hx, h⟩ := h
  obtain ⟨entry, hentry⟩ := derefResource_entry hx
  split at h
  · obtain ⟨entry', hupd, hidx⟩ := flushDevice_modify_spec h
    exact ⟨hidx, entry', hupd⟩
  · cases h
    exact ⟨rfl, entry, markDirty_spec hentry⟩

theorem jsonDatabaseSaveResource_cases
    (h : jsonDatabaseSaveResource db resource saved = some (db', ok)) :
    (ok = false ∧ db' = db) ∨ ResourceUpdated db db' := by
  have hsave := h
  revert h
  fun_cases jsonDatabaseSaveResource db resource saved <;> intro h
  case case2 r uri harg k endpoint j hloc =>
    obtain ⟨rfl, huri⟩ := of_argument harg
    obtain ⟨hidx, entry, hupd⟩ := jsonDatabaseSaveResource_effect huri hloc hsave
    exact .inr ⟨k, endpoint, j, entry, savedResource r, fun _ => rfl, hidx, hupd⟩
  all_goals exact .inl (of_refused h)

/-- What noting that it is in sync makes of a stored resource. -/
def syncedResource (now : UInt64) (x : IcDeviceResource) : IcDeviceResource :=
  { x with dateOfLastSyncMillis := now }

theorem jsonDatabaseUpdateDateOfLastSyncMillis_effect (huri : r.uri = some uri)
    (hloc : hashMapGet db.resourcesByUri (stringKey uri) = some (.resource k endpoint j))
    (h : jsonDatabaseUpdateDateOfLastSyncMillis db (some r) now = some (db', ok)) :
    db'.resourcesByUri = db.resourcesByUri ∧
      ∃ entry, Updated db db' k entry
        (withResource endpoint j (syncedResource now) entry.device) := by
  simp only [jsonDatabaseUpdateDateOfLastSyncMillis, bind_some, huri, hloc,
    bind_eq_bind, bind_eq_some_iff] at h
  obtain ⟨x, hx, h⟩ := h
  obtain ⟨entry, hentry⟩ := derefResource_entry hx
  cases h
  exact ⟨rfl, entry, markDirty_spec hentry⟩

theorem jsonDatabaseUpdateDateOfLastSyncMillis_cases
    (h : jsonDatabaseUpdateDateOfLastSyncMillis db resource now = some (db', ok)) :
    (ok = false ∧ db' = db) ∨ ResourceUpdated db db' := by
  have hsave := h
  revert h
  fun_cases jsonDatabaseUpdateDateOfLastSyncMillis db resource now <;> intro h
  case case2 uri harg k endpoint j hloc =>
    obtain ⟨r, rfl, huri⟩ := bind_eq_some_iff.mp harg
    obtain ⟨hidx, entry, hupd⟩ := jsonDatabaseUpdateDateOfLastSyncMillis_effect huri hloc hsave
    exact .inr ⟨k, endpoint, j, entry, syncedResource now, fun _ => rfl, hidx, hupd⟩
  all_goals exact .inl (of_refused h)

/-! ## Metadata -/

/-- Append metadata to a device or to one of its endpoints. -/
def withNewMetadata (endpoint : Option Nat) (m : IcDeviceMetadata) (d : IcDevice) : IcDevice :=
  match endpoint with
  | none => { d with metadata := d.metadata ++ [m] }
  | some i => withEndpoint i (fun e => { e with metadata := e.metadata ++ [m] }) d

/-- The list new metadata goes to. -/
def metadataOf (endpoint : Option Nat) (d : IcDevice) : Option (List IcDeviceMetadata) :=
  match endpoint with
  | none => some d.metadata
  | some i => d.endpoints[i]?.map (·.metadata)

theorem appendMetadata_spec {m : IcDeviceMetadata} {target : Option Key} (huri : m.uri = some uri)
    (hfree : hashMapGet db.resourcesByUri (stringKey uri) = none)
    (h : appendMetadata db k endpoint m j = some (db', target)) :
    target = some k ∧ ∃ idx, idx.items = db.resourcesByUri.items ++
        [(stringKey uri, .metadata k endpoint j)] ∧
      db' = modifyDevice { db with resourcesByUri := idx } k (withNewMetadata endpoint m) := by
  have hok : (hashMapPut db.resourcesByUri (stringKey uri) (.metadata k endpoint j)).2 = true :=
    (hashMapPut_snd _ _ _).mpr hfree
  cases endpoint <;>
  · simp only [appendMetadata, addDeviceMetadataURIEntry, huri, putLocator, bind_eq_bind,
      bind_some, some.injEq, Prod.mk.injEq] at h
    obtain ⟨rfl, rfl⟩ := h
    exact ⟨if_pos hok, _, items_put_of_free _ hfree, rfl⟩

/-- Saving metadata changes the value of metadata that is there, or appends and
indexes metadata whose uri is free, or only flushes the device. -/
theorem jsonDatabaseSaveMetadata_cases {metadata : Option IcDeviceMetadata}
    (h : jsonDatabaseSaveMetadata db metadata saved = some (db', ok)) :
    (ok = false ∧ db' = db) ∨
      (∃ k endpoint j entry f, (∀ m : IcDeviceMetadata, (f m).uri = m.uri) ∧
        db'.resourcesByUri = db.resourcesByUri ∧
        Updated db db' k entry (withMetadata endpoint j f entry.device)) ∨
      (∃ k entry, db'.resourcesByUri = db.resourcesByUri ∧ Updated db db' k entry entry.device) ∨
      ∃ m uri k endpoint entry ms, metadata = some m ∧ m.uri = some uri ∧
        hashMapGet db.resourcesByUri (stringKey uri) = none ∧
        metadataOf endpoint entry.device = some ms ∧
        db'.resourcesByUri.items = db.resourcesByUri.items ++
          [(stringKey uri, .metadata k endpoint ms.length)] ∧
        Updated db db' k entry (withNewMetadata endpoint m entry.device) := by
  revert h
  fun_cases jsonDatabaseSaveMetadata db metadata saved <;> intro h
  case case1 => exact .inl (of_refused h)
  case case2 m uri harg =>
    obtain ⟨rfl, huri⟩ := of_argument harg
    simp only [bind_eq_bind, bind_eq_some_iff] at h
    obtain ⟨⟨db₁, target⟩, hstore, h⟩ := h
    revert hstore
    fun_cases storeMetadata db m uri <;> intro hstore
    case case1 k endpoint j hloc =>
      -- metadata with this uri is there
      simp only [bind_eq_bind, bind_eq_some_iff, some.injEq, Prod.mk.injEq] at hstore
      obtain ⟨_, -, value, -, rfl, rfl⟩ := hstore
      obtain ⟨entry, hupd, hidx⟩ := flushDevice_modify_spec h
      refine .inr (.inl ⟨k, endpoint, j, entry, _, ?_, hidx, hupd⟩)
      exact fun _ => rfl
    case case2 =>
      -- the uri belongs to an object of another kind
      obtain ⟨rfl, rfl⟩ := Prod.mk.inj (some.inj hstore)
      exact .inl (of_refused h)
    case case3 hfree =>
      simp only [bind_eq_bind, bind_eq_some_iff] at hstore
      obtain ⟨deviceUuid, -, hstore⟩ := hstore
      split at hstore
      · obtain ⟨rfl, rfl⟩ := Prod.mk.inj (some.inj hstore)
        exact .inl (of_refused h)
      · simp only [bind_eq_some_iff] at hstore
        obtain ⟨found, hfound, hstore⟩ := hstore
        cases found with
        | none =>
          obtain ⟨rfl, rfl⟩ := Prod.mk.inj (some.inj hstore)
          -- a flush without a change is a flush after the identity
          have hsame : modifyDevice db (stringKey deviceUuid) (fun d => d) = db := by
            unfold modifyDevice modifyEntry
            rw [hashMapModify_id]
          rw [← hsame] at h
          obtain ⟨entry', hupd, hidx⟩ := flushDevice_modify_spec h
          exact .inr (.inr (.inl ⟨_, entry', hidx, hupd⟩))
        | some i =>
          simp only [bind_eq_some_iff] at hstore
          obtain ⟨e, he, hstore⟩ := hstore
          obtain ⟨rfl, idx, hitems, rfl⟩ := appendMetadata_spec huri hfree hstore
          obtain ⟨entry', hupd, rfl⟩ := flushDevice_spec h
          obtain ⟨entry'', hentry'', hat⟩ := derefEndpoint_eq_some he
          obtain rfl := some.inj (hentry''.symm.trans hupd.found)
          exact .inr (.inr (.inr ⟨m, uri, _, some i, entry'', e.metadata, rfl, huri, hfree,
            by simp [metadataOf, hat], hitems, hupd⟩))
      · rename_i entry hentry _
        obtain ⟨rfl, idx, hitems, rfl⟩ := appendMetadata_spec huri hfree hstore
        obtain ⟨entry', hupd, rfl⟩ := flushDevice_spec h
        cases hentry.symm.trans hupd.found
        exact .inr (.inr (.inr ⟨m, uri, _, none, entry, _, rfl, huri, hfree, rfl, hitems, hupd⟩))

/-! ## Removing -/

theorem jsonDatabaseRemoveDeviceById_cases {uuid : Option CString} {deleted : Bool}
    (h : jsonDatabaseRemoveDeviceById db uuid deleted = some (db', ok)) :
    (ok = false ∧ db' = db) ∨
      ∃ uuid' entry, uuid = some uuid' ∧ ok = true ∧
        hashMapGet db.devices (stringKey uuid') = some entry ∧
        db'.devices = (hashMapDelete db.devices (stringKey uuid')).1 ∧
        (db'.resourcesByUri.items =
          db.resourcesByUri.items.filter fun item => item.1 ∉ deviceKeys entry.device) ∧
        db'.storage = (hashMapDelete db.storage uuid').1 ∧
        db'.systemProperties = db.systemProperties := by
  revert h
  fun_cases jsonDatabaseRemoveDeviceById db uuid deleted <;> intro h
  case case3 uuid' entry hentry _ =>
    simp only [bind_eq_bind, bind_eq_some_iff, some.injEq, Prod.mk.injEq] at h
    obtain ⟨db₁, hdel, rfl, rfl⟩ := h
    obtain ⟨-, hdev, hidx, hst, hsp⟩ := deleteDevice_spec hdel hentry
    exact .inr ⟨uuid', entry, rfl, rfl, hentry, hdev, hidx, hst, hsp⟩
  all_goals exact .inl (of_refused h)

end ZilkerSdk.Device.Database

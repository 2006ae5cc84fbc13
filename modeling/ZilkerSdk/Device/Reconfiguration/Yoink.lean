import ZilkerSdk.Device.Reconfiguration.Model

/-!
# What moving the customized data does

`yoinkCustomizedDeviceData` changes values and metadata of the new device and no id.  The old
device is one that the service has stored (`Stored`): its resources are found under their uris,
and no two of its endpoints have one id.
-/

namespace ZilkerSdk.Device.Reconfiguration

open Types Lib Device.Database Device.PairingRemoval List
open Option hiding map_map pure_def

variable {db : JsonDatabase} {uuid : CString}

/-! ## Ids and values -/

def resourceIds (resources : List IcDeviceResource) : List (Option CString) :=
  resources.map (·.id)

def resourceValues (resources : List IcDeviceResource) : List (Option CString × Option CString) :=
  resources.map fun r => (r.id, r.value)

/-- What of an endpoint is not changed by moving data into it. -/
def endpointIds (e : IcDeviceEndpoint) : Option CString × List (Option CString) :=
  (e.id, resourceIds e.resources)

variable {rs rs' : List IcDeviceResource} {id : Option CString} {e : NewEndpoint} {base : CString}
  {r : IcDeviceResource} {endpoint : Option Nat}

theorem resourceIds_of_values (h : resourceValues rs = resourceValues rs') :
    resourceIds rs = resourceIds rs' := by
  have hfst := congrArg (map Prod.fst) h
  rwa [resourceValues, resourceValues, map_map, map_map] at hfst

theorem mem_resourceIds_of_value {v : Option CString} (h : (id, v) ∈ resourceValues rs) :
    id ∈ resourceIds rs := by
  obtain ⟨r, hr, heq⟩ := mem_map.mp h
  exact mem_map.mpr ⟨r, hr, (Prod.mk.inj heq).1⟩

theorem exists_value_of_mem_resourceIds (h : id ∈ resourceIds rs) :
    ∃ v, (id, v) ∈ resourceValues rs := by
  obtain ⟨r, hr, rfl⟩ := mem_map.mp h
  exact ⟨r.value, mem_map.mpr ⟨r, hr, rfl⟩⟩

/-! ## One resource -/

theorem yoinkResource_ids (id : CString) (v : Option CString) (rs : List IcDeviceResource) :
    resourceIds (yoinkResource id v rs).1 = resourceIds rs := by
  induction rs with
  | nil => rfl
  | cons r rest ih =>
    unfold yoinkResource
    split
    · rfl
    · exact congrArg (r.id :: ·) ih

theorem yoinkResource_value {id : CString} (h : some id ∈ resourceIds rs) (v : Option CString) :
    (some id, v) ∈ resourceValues (yoinkResource id v rs).1 := by
  induction rs with
  | nil => cases h
  | cons r rest ih =>
    unfold yoinkResource
    split
    · rename_i hr
      apply mem_cons.mpr
      exact .inl (by rw [hr])
    · rename_i hr
      apply mem_cons_of_mem
      apply ih
      exact (mem_cons.mp h).resolve_left (Ne.symm hr)

theorem yoinkLabel_ids (label : Option (Option CString)) (rs : List IcDeviceResource) :
    resourceIds (yoinkLabel label rs).1 = resourceIds rs := by
  cases label with
  | none => rfl
  | some v => exact yoinkResource_ids labelId v rs

/-! ## One endpoint of the old device -/

section Endpoint

variable (id : Option CString) (label : Option (Option CString))
  (metadata : Option (List IcDeviceMetadata)) (es : List NewEndpoint)

theorem yoinkEndpoint_matched :
    (yoinkEndpoint id label metadata es).2 = true ↔ ∃ e ∈ es, e.endpoint.id = id := by
  induction es generalizing label metadata with
  | nil => simp [yoinkEndpoint]
  | cons e rest ih =>
    unfold yoinkEndpoint
    split
    · rename_i he
      simp [he]
    · rename_i he
      simp [he, ih]

theorem yoinkEndpoint_ids :
    (yoinkEndpoint id label metadata es).1.map (fun e => endpointIds e.endpoint) =
      es.map fun e => endpointIds e.endpoint := by
  induction es generalizing label metadata with
  | nil => rfl
  | cons e rest ih =>
    unfold yoinkEndpoint
    split
    · rw [map_cons, map_cons, ih]
      simp only [endpointIds, yoinkLabel_ids]
    · simp [ih]

variable {id} {es}

theorem mem_yoinkEndpoint_of_ne {e : NewEndpoint} (he : e ∈ es) (hne : e.endpoint.id ≠ id) :
    e ∈ (yoinkEndpoint id label metadata es).1 := by
  induction es generalizing label metadata with
  | nil => cases he
  | cons x rest ih =>
    unfold yoinkEndpoint
    rcases mem_cons.mp he with rfl | he
    · rw [if_neg hne]
      exact mem_cons_self
    · split <;> exact mem_cons_of_mem _ (ih _ _ he)

theorem mem_yoinkEndpoint_first (h : ∃ e ∈ es, e.endpoint.id = id) :
    ∃ e ∈ es, e.endpoint.id = id ∧
      ⟨{ e.endpoint with resources := (yoinkLabel label e.endpoint.resources).1 }, metadata⟩ ∈
        (yoinkEndpoint id label metadata es).1 := by
  induction es with
  | nil =>
    obtain ⟨e, he, -⟩ := h
    cases he
  | cons x rest ih =>
    by_cases hx : x.endpoint.id = id
    · refine ⟨x, mem_cons_self, hx, ?_⟩
      unfold yoinkEndpoint
      rw [if_pos hx]
      exact mem_cons_self
    · obtain ⟨y, hy, hyid⟩ := h
      rcases mem_cons.mp hy with rfl | hy
      · exact absurd hyid hx
      obtain ⟨e, he, heid, hmem⟩ := ih ⟨y, hy, hyid⟩
      refine ⟨e, mem_cons_of_mem _ he, heid, ?_⟩
      unfold yoinkEndpoint
      rw [if_neg hx]
      exact mem_cons_of_mem _ hmem

end Endpoint

/-! ## All endpoints -/

variable {olds : List IcDeviceEndpoint} {es es' : List NewEndpoint} {ok : Bool}

theorem yoinkEndpoints_cons {o : IcDeviceEndpoint}
    (h : yoinkEndpoints db uuid (o :: olds) es = some (es', ok)) :
    ∃ found, deviceServiceGetResourceById db uuid o.id labelId = some found ∧
      let round := yoinkEndpoint o.id (found.map (·.value)) (some o.metadata) es
      (round.2 = true ∧ yoinkEndpoints db uuid olds round.1 = some (es', ok)) ∨
        (round.2 = false ∧ es' = round.1 ∧ ok = false) := by
  simp only [yoinkEndpoints, bind_eq_bind, bind_eq_some_iff] at h
  obtain ⟨found, hfound, h⟩ := h
  refine ⟨found, hfound, ?_⟩
  split at h
  · exact .inl ⟨‹_›, h⟩
  · rename_i hmatched
    cases h
    exact .inr ⟨Bool.eq_false_iff.mpr hmatched, rfl, rfl⟩

theorem yoinkEndpoints_ids (h : yoinkEndpoints db uuid olds es = some (es', ok)) :
    (es'.map fun e => endpointIds e.endpoint) = es.map fun e => endpointIds e.endpoint := by
  induction olds generalizing es with
  | nil =>
    cases h
    rfl
  | cons o olds ih =>
    obtain ⟨found, -, ⟨-, hrest⟩ | ⟨-, rfl, -⟩⟩ := yoinkEndpoints_cons h
    · exact (ih hrest).trans (yoinkEndpoint_ids ..)
    · exact yoinkEndpoint_ids ..

theorem exists_id_congr
    (h : (es'.map fun e => endpointIds e.endpoint) = es.map fun e => endpointIds e.endpoint) :
    (∃ e ∈ es', e.endpoint.id = id) ↔ ∃ e ∈ es, e.endpoint.id = id := by
  have hids := congrArg (map Prod.fst) h
  simp only [map_map, Function.comp_def, endpointIds] at hids
  have hmem := congrArg (id ∈ ·) hids
  simpa using hmem

/-- The loop succeeds exactly when every old endpoint has a match. -/
theorem yoinkEndpoints_matched (h : yoinkEndpoints db uuid olds es = some (es', ok)) :
    ok = true ↔ ∀ o ∈ olds, ∃ e ∈ es, e.endpoint.id = o.id := by
  induction olds generalizing es with
  | nil =>
    cases h
    simp
  | cons o olds ih =>
    obtain ⟨found, -, hrest⟩ := yoinkEndpoints_cons h
    rw [forall_mem_cons, ← yoinkEndpoint_matched o.id (found.map (·.value)) (some o.metadata) es]
    rcases hrest with ⟨hmatched, hrest⟩ | ⟨hmatched, -, rfl⟩
    · rw [ih hrest]
      simp only [exists_id_congr (yoinkEndpoint_ids ..), hmatched, true_and]
    · simp [hmatched]

theorem mem_yoinkEndpoints_of_notMem (h : yoinkEndpoints db uuid olds es = some (es', ok))
    (he : e ∈ es) (hid : e.endpoint.id ∉ olds.map (·.id)) : e ∈ es' := by
  induction olds generalizing es with
  | nil =>
    cases h
    exact he
  | cons o olds ih =>
    rw [map_cons, mem_cons, not_or] at hid
    obtain ⟨found, -, ⟨-, hrest⟩ | ⟨-, rfl, -⟩⟩ := yoinkEndpoints_cons h
    · exact ih hrest (mem_yoinkEndpoint_of_ne _ _ he hid.1) hid.2
    · exact mem_yoinkEndpoint_of_ne _ _ he hid.1

/-- The new endpoint has the metadata of the old one, and its label unless it has no resource
for it. -/
structure Given (db : JsonDatabase) (uuid : CString) (o : IcDeviceEndpoint) (e : NewEndpoint) :
    Prop where
  id : e.endpoint.id = o.id
  metadata : e.metadata = some o.metadata
  label : ∀ r, deviceServiceGetResourceById db uuid o.id labelId = some (some r) →
    some labelId ∈ resourceIds e.endpoint.resources →
      (some labelId, r.value) ∈ resourceValues e.endpoint.resources

/-- After a loop that succeeds every old endpoint has been given away.  What a round gives is not
touched by later rounds, which are about other ids. -/
theorem yoinkEndpoints_given (h : yoinkEndpoints db uuid olds es = some (es', true))
    (hids : (olds.map (·.id)).Nodup) : ∀ o ∈ olds, ∃ e ∈ es', Given db uuid o e := by
  induction olds generalizing es with
  | nil => simp
  | cons o olds ih =>
    rw [map_cons, nodup_cons] at hids
    obtain ⟨found, hfound, ⟨hmatched, hrest⟩ | ⟨-, -, hfalse⟩⟩ := yoinkEndpoints_cons h
    · rw [forall_mem_cons]
      refine ⟨?_, ih hrest hids.2⟩
      obtain ⟨e, -, heid, hmem⟩ := mem_yoinkEndpoint_first (found.map (·.value))
        (some o.metadata) ((yoinkEndpoint_matched ..).mp hmatched)
      refine ⟨_, mem_yoinkEndpoints_of_notMem hrest hmem ?_, heid, rfl, ?_⟩
      · rw [heid]
        exact hids.1
      · intro r hr hlabel
        cases hfound.symm.trans hr
        apply yoinkResource_value
        rwa [yoinkLabel_ids] at hlabel
    · cases hfalse

/-! ## A device that the service has stored -/

/-- The device is stored under its uuid, in a consistent database, with the uris that the service
gives its devices. -/
structure Stored (db : JsonDatabase) (uuid : CString) (device : IcDevice) : Prop where
  index : IndexInv db
  found : ∃ entry, hashMapGet db.devices (stringKey uuid) = some entry ∧ entry.device = device
  uuid : device.uuid = some uuid
  uris : setUris device = some device

theorem setUrisOnResources_eq_some (h : setUrisOnResources base rs = some rs') :
    List.Forall₂ (fun r r' => ∃ id, r.id = some id ∧
      r' = { r with uri := some (base ++ "/r/".toList ++ id) }) rs rs' := by
  refine (mapM_eq_some_iff.mp h).imp fun r r' hr => ?_
  obtain ⟨id, hid, heq⟩ := map_eq_some_iff.mp hr
  exact ⟨id, hid, heq.symm⟩

theorem setUrisOnEndpoint_eq_some {e e' : IcDeviceEndpoint}
    (h : setUrisOnEndpoint uuid e = some e') : ∃ id, e.id = some id ∧ e'.id = some id ∧
      e'.uri = some (getEndpointUri uuid id) ∧ e'.metadata = e.metadata ∧
      setUrisOnResources (getEndpointUri uuid id) e.resources = some e'.resources := by
  simp only [setUrisOnEndpoint, bind_eq_bind, bind_eq_some_iff, Option.pure_def,
    Option.some.injEq] at h
  obtain ⟨id, hid, resources, hresources, rfl⟩ := h
  exact ⟨id, hid, hid, rfl, rfl, hresources⟩

theorem setUris_eq_some {d d' : IcDevice} (h : setUris d = some d')
    (huuid : d.uuid = some uuid) : d'.uri = some ("/".toList ++ uuid) ∧ d'.metadata = d.metadata ∧
      setUrisOnResources ("/".toList ++ uuid) d.resources = some d'.resources ∧
      List.Forall₂ (fun e e' => setUrisOnEndpoint uuid e = some e') d.endpoints d'.endpoints := by
  simp only [setUris, huuid, bind_eq_bind, bind_some, bind_eq_some_iff,
    Option.pure_def, Option.some.injEq] at h
  obtain ⟨resources, hresources, endpoints, hendpoints, rfl⟩ := h
  exact ⟨rfl, rfl, hresources, mapM_eq_some_iff.mp hendpoints⟩

theorem uri_of_setUrisOnResources (h : setUrisOnResources base rs = some rs) (hr : r ∈ rs) :
    ∃ id, r.id = some id ∧ r.uri = some (base ++ "/r/".toList ++ id) := by
  obtain ⟨id, hid, heq⟩ := forall₂_same.mp (setUrisOnResources_eq_some h) r hr
  exact ⟨id, hid, congrArg IcDeviceResource.uri heq⟩

namespace Stored

variable {old : IcDevice}

section

variable (h : Stored db uuid old)
include h

theorem endpoint_uri {e : IcDeviceEndpoint} (he : e ∈ old.endpoints) :
    ∃ id, e.id = some id ∧ e.uri = some (getEndpointUri uuid id) ∧
      ∀ r ∈ e.resources, ∃ rid, r.id = some rid ∧
        r.uri = some (getEndpointUri uuid id ++ "/r/".toList ++ rid) := by
  obtain ⟨-, -, -, hendpoints⟩ := setUris_eq_some h.uris h.uuid
  obtain ⟨id, hid, -, huri, -, hresources⟩ :=
    setUrisOnEndpoint_eq_some (forall₂_same.mp hendpoints e he)
  exact ⟨id, hid, huri, fun r hr => uri_of_setUrisOnResources hresources hr⟩

theorem holds {u : Option CString} {l : Locator} (hu : uriAt old l = some u)
    (hl : l.entry = stringKey uuid) : Holds db u l := by
  obtain ⟨entry, hentry, rfl⟩ := h.found
  exact ⟨entry, hl ▸ hentry, hu⟩

/-- No two endpoints have one id: their uris would be the same. -/
theorem endpoint_ids_nodup : (old.endpoints.map (·.id)).Nodup := by
  refine nodup_iff_injective_get.mpr fun i j hij => ?_
  have hi : (i : Nat) < old.endpoints.length := by simpa using i.isLt
  have hj : (j : Nat) < old.endpoints.length := by simpa using j.isLt
  have hids : old.endpoints[(i : Nat)].id = old.endpoints[(j : Nat)].id := by simpa using hij
  obtain ⟨id, hid, huri, -⟩ := h.endpoint_uri (getElem_mem hi)
  obtain ⟨id', hid', huri', -⟩ := h.endpoint_uri (getElem_mem hj)
  cases hid.symm.trans (hids.trans hid')
  have hat : uriAt old (.endpoint (stringKey uuid) i) = some (some (getEndpointUri uuid id)) := by
    simp [uriAt, hi, huri]
  have hat' : uriAt old (.endpoint (stringKey uuid) j) = some (some (getEndpointUri uuid id)) := by
    simp [uriAt, hj, huri']
  have hget := (h.index.exact _ _).mpr ⟨_, h.holds hat rfl, rfl⟩
  have hget' := (h.index.exact _ _).mpr ⟨_, h.holds hat' rfl, rfl⟩
  exact Fin.ext (Locator.endpoint.inj (Option.some.inj (hget.symm.trans hget'))).2

end

end Stored

/-! ## Looking up -/

theorem derefResource_of_holds (h : IndexInv db) {u : Option CString} {k : Key} {j : Nat}
    (hl : Holds db u (.resource k endpoint j)) : ∃ r, derefResource db k endpoint j = some r := by
  obtain ⟨entry, hentry, hu⟩ := hl
  cases endpoint with
  | none =>
    obtain ⟨r, hr, -⟩ := map_eq_some_iff.mp hu
    exact ⟨r, by simpa [derefResource, show hashMapGet db.devices k = some entry from hentry]⟩
  | some i =>
    obtain ⟨e, he, hu⟩ := bind_eq_some_iff.mp hu
    obtain ⟨r, hr, -⟩ := map_eq_some_iff.mp hu
    have halive := h.alive k entry hentry
    exact ⟨r, by simp [derefResource, derefEndpoint,
      show hashMapGet db.devices k = some entry from hentry, halive, he, hr]⟩

theorem jsonDatabaseGetResourceByUri_defined (h : IndexInv db) (uri : CString) :
    ∃ found, jsonDatabaseGetResourceByUri db (some uri) = some found := by
  cases hget : hashMapGet db.resourcesByUri (stringKey uri) with
  | none => exact ⟨none, by simp [jsonDatabaseGetResourceByUri, answer, hget]⟩
  | some l =>
    cases l with
    | resource k endpoint j =>
      obtain ⟨_, hholds, -⟩ := (h.exact _ _).mp hget
      obtain ⟨r, hr⟩ := derefResource_of_holds h hholds
      exact ⟨some r, by simp [jsonDatabaseGetResourceByUri, answer, hget, hr]⟩
    | device | endpoint | metadata =>
      exact ⟨none, by simp [jsonDatabaseGetResourceByUri, answer, hget]⟩

theorem deviceServiceGetResourceById_defined (h : IndexInv db) (uuid : CString)
    (endpointId : Option CString) (id : CString) :
    ∃ found, deviceServiceGetResourceById db uuid endpointId id = some found := by
  cases endpointId with
  | none | some => exact jsonDatabaseGetResourceByUri_defined h _

theorem jsonDatabaseGetResourceByUri_of_deref (h : IndexInv db) {uri : CString} {k : Key} {j : Nat}
    (hl : Holds db (some uri) (.resource k endpoint j))
    (hr : derefResource db k endpoint j = some r) :
    jsonDatabaseGetResourceByUri db (some uri) = some (some r) := by
  have hget := (h.exact (stringKey uri) _).mpr ⟨uri, hl, rfl⟩
  simp [jsonDatabaseGetResourceByUri, answer, hget, hr]

namespace Stored

variable {old : IcDevice} {r : IcDeviceResource} {id : CString}

theorem lookup_resource (h : Stored db uuid old) (hr : r ∈ old.resources) (hid : r.id = some id) :
    deviceServiceGetResourceById db uuid none id = some (some r) := by
  obtain ⟨j, hj⟩ := mem_iff_getElem?.mp hr
  obtain ⟨-, -, hresources, -⟩ := setUris_eq_some h.uris h.uuid
  obtain ⟨id', hid', huri⟩ := uri_of_setUrisOnResources hresources hr
  cases hid.symm.trans hid'
  obtain ⟨entry, hentry, hold⟩ := h.found
  have hat : uriAt old (.resource (stringKey uuid) none j) = some r.uri := by simp [uriAt, hj]
  rw [huri] at hat
  apply jsonDatabaseGetResourceByUri_of_deref h.index (h.holds hat rfl)
  simp [derefResource, hentry, hold, hj]

theorem lookup_endpoint_resource (h : Stored db uuid old) {e : IcDeviceEndpoint}
    (he : e ∈ old.endpoints) (hr : r ∈ e.resources) (hid : r.id = some id) :
    deviceServiceGetResourceById db uuid e.id id = some (some r) := by
  obtain ⟨i, hi⟩ := mem_iff_getElem?.mp he
  obtain ⟨j, hj⟩ := mem_iff_getElem?.mp hr
  obtain ⟨eid, heid, -, hresources⟩ := h.endpoint_uri he
  obtain ⟨id', hid', huri⟩ := hresources r hr
  cases hid.symm.trans hid'
  obtain ⟨entry, hentry, hold⟩ := h.found
  have hat : uriAt old (.resource (stringKey uuid) (some i) j) = some r.uri := by
    simp [uriAt, hi, hj]
  rw [huri] at hat
  rw [heid]
  apply jsonDatabaseGetResourceByUri_of_deref h.index (h.holds hat rfl)
  simp [derefResource, derefEndpoint, hentry, hold, hi, hj, h.index.alive _ entry hentry]

end Stored

/-! ## The device that is to be added -/

/-- The new device with the data and the uris it is added with. -/
def replacement (db : JsonDatabase) (uuid : CString) (oldDevice newDevice : IcDevice) :
    Option IcDevice := do
  let (resources, endpoints, _) ← yoinkCustomizedDeviceData db uuid oldDevice newDevice
  setUris (← yoinkedDevice oldDevice newDevice resources endpoints)

/-- Every endpoint of the old device has one with its id in the new one. -/
def EndpointsMatched (oldDevice newDevice : IcDevice) : Prop :=
  ∀ o ∈ oldDevice.endpoints, ∃ e ∈ newDevice.endpoints, e.id = o.id

instance (oldDevice newDevice : IcDevice) : Decidable (EndpointsMatched oldDevice newDevice) := by
  delta EndpointsMatched
  infer_instance

/-- What the added device has of the old device and of the new one. -/
structure Yoinked (uuid : CString) (old new added : IcDevice) : Prop where
  uri : added.uri ≠ none
  endpointUris : ∀ e ∈ added.endpoints, ∃ id, e.id = some id ∧ e.uri = some (getEndpointUri uuid id)
  resourceIds : resourceIds added.resources = resourceIds new.resources
  endpointIds : added.endpoints.map endpointIds = new.endpoints.map endpointIds
  metadata : added.metadata = old.metadata
  dateAdded : ∀ v, (some dateAddedId, v) ∈ resourceValues old.resources →
    some dateAddedId ∈ Reconfiguration.resourceIds new.resources →
      (some dateAddedId, v) ∈ resourceValues added.resources
  endpoints : ∀ o ∈ old.endpoints, ∃ e ∈ added.endpoints, e.id = o.id ∧ e.metadata = o.metadata ∧
    ∀ v, (some labelId, v) ∈ resourceValues o.resources →
      some labelId ∈ Reconfiguration.resourceIds e.resources →
        (some labelId, v) ∈ resourceValues e.resources

theorem setUrisOnResources_values (h : setUrisOnResources base rs = some rs') :
    resourceValues rs' = resourceValues rs := by
  have hforall := setUrisOnResources_eq_some h
  clear h
  induction hforall with
  | nil => rfl
  | cons hr _ ih =>
    obtain ⟨id, -, rfl⟩ := hr
    exact congrArg (cons _) ih

/-- An endpoint is cloned and gets its uris: the ids, the values and the metadata stay. -/
theorem clone_setUris {e₁ e' : IcDeviceEndpoint} (hclone : e.clone = some e₁)
    (h : setUrisOnEndpoint uuid e₁ = some e') :
    e'.id = e.endpoint.id ∧ e.metadata = some e'.metadata ∧
      resourceValues e'.resources = resourceValues e.endpoint.resources ∧
      ∃ id, e'.id = some id ∧ e'.uri = some (getEndpointUri uuid id) := by
  obtain ⟨metadata, hmetadata, rfl⟩ := map_eq_some_iff.mp hclone
  obtain ⟨id, hid, hid', huri, hmeta, hresources⟩ := setUrisOnEndpoint_eq_some h
  exact ⟨hid'.trans hid.symm, hmeta ▸ hmetadata, setUrisOnResources_values hresources,
    id, hid', huri⟩

variable {old new added : IcDevice}

theorem replacement_eq_some (h : replacement db uuid old new = some added) :
    ∃ found es result es₁, deviceServiceGetResourceById db uuid none dateAddedId = some found ∧
      yoinkEndpoints db uuid old.endpoints (new.endpoints.map .ofEndpoint) = some (es, result) ∧
      es.mapM NewEndpoint.clone = some es₁ ∧
      setUris { new with metadata := old.metadata, resources := yoinkDateAdded found new.resources,
                         endpoints := es₁ } = some added := by
  simp only [replacement, yoinkCustomizedDeviceData, yoinkedDevice, bind_eq_bind,
    bind_eq_some_iff, Option.some.injEq, Prod.exists] at h
  obtain ⟨_, _, _, ⟨found, hfound, es, result, hes, heq⟩, _, ⟨es₁, hclone, rfl⟩, hset⟩ := h
  obtain ⟨rfl, rfl, rfl⟩ : yoinkDateAdded found new.resources = _ ∧ es = _ ∧ result = _ := by
    simpa using heq
  exact ⟨found, es, result, es₁, hfound, hes, hclone, hset⟩

theorem replacement_uuid (h : replacement db uuid old new = some added) :
    added.uuid = new.uuid := by
  obtain ⟨_, _, _, _, -, -, -, hset⟩ := replacement_eq_some h
  have huuid := setUris_uuid hset
  exact huuid

/-- What the device that is to be added has of the old and of the new one. -/
theorem replacement_yoinked (hst : Stored db uuid old) (huuid : new.uuid = some uuid)
    (hmatched : EndpointsMatched old new) (h : replacement db uuid old new = some added) :
    Yoinked uuid old new added := by
  obtain ⟨found, es, result, es₁, hfound, hes, hclone, hset⟩ := replacement_eq_some h
  obtain ⟨huri, hmetadata, hresources, hendpoints⟩ := setUris_eq_some hset huuid
  have hvalues := setUrisOnResources_values hresources
  have hcounterpart := (Forall₂.comp (mapM_eq_some_iff.mp hclone) hendpoints).imp
    fun _ _ ⟨_, hclone, hset⟩ => clone_setUris hclone hset
  have hresult : result = true := by
    rw [yoinkEndpoints_matched hes]
    intro o ho
    obtain ⟨e, he, heid⟩ := hmatched o ho
    exact ⟨.ofEndpoint e, mem_map_of_mem he, heid⟩
  subst hresult
  have hgiven := yoinkEndpoints_given hes hst.endpoint_ids_nodup
  have hids := yoinkEndpoints_ids hes
  refine ⟨?_, ?_, ?_, ?_, hmetadata, ?_, ?_⟩
  · rw [huri]
    exact some_ne_none _
  · intro e' he'
    obtain ⟨e, -, -, -, -, hid⟩ := Forall₂.exists_right hcounterpart.flip he'
    exact hid
  · rw [resourceIds_of_values hvalues]
    cases found with
    | none => rfl
    | some r => exact yoinkResource_ids dateAddedId r.value new.resources
  · have hsame := Forall₂.map_eq (hcounterpart.imp fun e e' he =>
      show endpointIds e.endpoint = endpointIds e' from
        Prod.ext he.1.symm (resourceIds_of_values he.2.2.1).symm)
    rw [← hsame, hids, map_map]
    rfl
  · intro v hv hnew
    obtain ⟨r, hr, heq⟩ := mem_map.mp hv
    obtain ⟨hrid, rfl⟩ := Prod.mk.inj heq
    -- what the lookup has found is the resource of the old device
    cases hfound.symm.trans (hst.lookup_resource hr hrid)
    rw [hvalues]
    exact yoinkResource_value hnew r.value
  · intro o ho
    obtain ⟨e, he, hoe⟩ := hgiven o ho
    obtain ⟨e', he', hid', hmeta', hvalues', -⟩ := Forall₂.exists_right hcounterpart he
    refine ⟨e', he', hid'.trans hoe.id, Option.some.inj (hmeta'.symm.trans hoe.metadata), ?_⟩
    intro v hv hlabel
    obtain ⟨r, hr, heq⟩ := mem_map.mp hv
    obtain ⟨hrid, rfl⟩ := Prod.mk.inj heq
    rw [hvalues']
    apply hoe.label r (hst.lookup_endpoint_resource ho hr hrid)
    rwa [← resourceIds_of_values hvalues']

end ZilkerSdk.Device.Reconfiguration

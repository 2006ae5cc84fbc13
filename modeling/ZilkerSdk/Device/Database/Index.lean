import ZilkerSdk.Device.Model
import ZilkerSdk.Lib.Fallible

/-!
# The uri index of the device database

Model of the first part of `database/jsonDatabase.c`: the map `resourcesByUri`
from the uri of every device, endpoint, resource and metadata object to a
locator, and the functions that add and remove the entries of a device.

A locator of the source holds pointers.  Here a cache entry is named by its key
in the map `devices`, and an object inside it by its position in the list that
holds it; positions do not move while an object lives, because the lists of the
database are only ever appended to or replaced as a whole.
-/

namespace ZilkerSdk.Device.Database

open Types Lib List

/-! ## Locators -/

/-- `Locator`: what an entry of the index points to. -/
inductive Locator where
  | device (entry : Key)
  | endpoint (entry : Key) (endpoint : Nat)
  | resource (entry : Key) (endpoint : Option Nat) (resource : Nat)
  | metadata (entry : Key) (endpoint : Option Nat) (metadata : Nat)
deriving DecidableEq, Repr

/-- The cache entry a locator leads to. -/
def Locator.entry : Locator → Key
  | .device k => k
  | .endpoint k _ => k
  | .resource k _ _ => k
  | .metadata k _ _ => k

/-- `resourcesByUri`. -/
abbrev Index := IcHashMap Key Locator

/-! ## Removing entries -/

/-- `removeMetadataURIEntry`; the uri is not checked for `NULL`. -/
def removeMetadataURIEntry (idx : Index) (m : IcDeviceMetadata) : Option Index :=
  match m.uri with
  | none => none
  | some uri => some (hashMapDelete idx (stringKey uri)).1

def removeDeviceResourceURIEntry (idx : Index) (r : IcDeviceResource) : Index :=
  match r.uri with
  | none => idx
  | some uri => (hashMapDelete idx (stringKey uri)).1

def removeEndpointURIEntries (idx : Index) (e : IcDeviceEndpoint) : Option Index :=
  match e.uri with
  -- without a uri nothing inside the endpoint is visited either
  | none => some idx
  | some uri =>
    let idx := (hashMapDelete idx (stringKey uri)).1
    let idx := e.resources.foldl removeDeviceResourceURIEntry idx
    e.metadata.foldlM removeMetadataURIEntry idx

def removeDeviceURIEntries (idx : Index) (d : IcDevice) : Option Index :=
  match d.uri with
  | none => some idx
  | some uri => do
    let idx := (hashMapDelete idx (stringKey uri)).1
    let idx ← d.endpoints.foldlM removeEndpointURIEntries idx
    let idx := d.resources.foldl removeDeviceResourceURIEntry idx
    d.metadata.foldlM removeMetadataURIEntry idx

/-! ## Adding entries -/

/-- One `hashMapPut` on the index. -/
def putLocator (uri : CString) (l : Locator) : Fallible Index := fun idx =>
  some (hashMapPut idx (stringKey uri) l)

/-- `addDeviceMetadataURIEntry`; the uri is not checked for `NULL`. -/
def addDeviceMetadataURIEntry (entry : Key) (endpoint : Option Nat) (m : IcDeviceMetadata × Nat) :
    Fallible Index :=
  match m.1.uri with
  | none => fun _ => none
  | some uri => putLocator uri (.metadata entry endpoint m.2)

def addDeviceResourceURIEntry (entry : Key) (endpoint : Option Nat) (r : IcDeviceResource × Nat) :
    Fallible Index :=
  match r.1.uri with
  | none => .refuse
  | some uri => putLocator uri (.resource entry endpoint r.2)

def addEndpointURIEntries (entry : Key) (e : IcDeviceEndpoint × Nat) : Fallible Index :=
  match e.1.uri with
  | none => .refuse
  | some uri =>
    ((putLocator uri (.endpoint entry e.2)).andThen
      (.forEach (addDeviceResourceURIEntry entry (some e.2)) e.1.resources.zipIdx)).andThen
      (.forEach (addDeviceMetadataURIEntry entry (some e.2)) e.1.metadata.zipIdx)

/-- The part of `addDeviceURIEntries` that inserts. -/
def insertDeviceURIEntries (entry : Key) (d : IcDevice) : Fallible Index :=
  match d.uri with
  | none => .refuse
  | some uri =>
    (((putLocator uri (.device entry)).andThen
      (.forEach (addEndpointURIEntries entry) d.endpoints.zipIdx)).andThen
      (.forEach (addDeviceResourceURIEntry entry none) d.resources.zipIdx)).andThen
      (.forEach (addDeviceMetadataURIEntry entry none) d.metadata.zipIdx)

/-- `addDeviceURIEntries`: after a failure everything the device names is removed. -/
def addDeviceURIEntries (entry : Key) (d : IcDevice) : Fallible Index := fun idx => do
  let (idx', ok) ← insertDeviceURIEntries entry d idx
  if ok then some (idx', true)
  else
    -- removal goes by uri, so it also takes entries that other objects own
    let idx'' ← removeDeviceURIEntries idx' d
    some (idx'', false)

/-! ## The objects of a device -/

/-- An object of the database: its uri and the locator that leads to it. -/
abbrev Object := Option CString × Locator

def resourceObjects (entry : Key) (endpoint : Option Nat) (rs : List IcDeviceResource) :
    List Object :=
  rs.zipIdx.map fun r => (r.1.uri, .resource entry endpoint r.2)

def metadataObjects (entry : Key) (endpoint : Option Nat) (ms : List IcDeviceMetadata) :
    List Object :=
  ms.zipIdx.map fun m => (m.1.uri, .metadata entry endpoint m.2)

def endpointObjects (entry : Key) (e : IcDeviceEndpoint × Nat) : List Object :=
  (e.1.uri, .endpoint entry e.2) :: (resourceObjects entry (some e.2) e.1.resources ++
    metadataObjects entry (some e.2) e.1.metadata)

/-- All objects reachable from a device stored under `entry`. -/
def deviceObjects (entry : Key) (d : IcDevice) : List Object :=
  (d.uri, .device entry) :: (d.endpoints.zipIdx.flatMap (endpointObjects entry) ++
    (resourceObjects entry none d.resources ++ metadataObjects entry none d.metadata))

/-- The index entries that name the given objects. -/
def entriesOf (os : List Object) : List (Key × Locator) :=
  os.filterMap fun o => o.1.map fun uri => (stringKey uri, o.2)

/-- Every object has a uri. -/
def Named (os : List Object) : Prop := ∀ o ∈ os, o.1.isSome

/-! ## The keys removal visits -/

def resourceKeys (rs : List IcDeviceResource) : List Key := (rs.filterMap (·.uri)).map stringKey

def metadataKeys (ms : List IcDeviceMetadata) : List Key := (ms.filterMap (·.uri)).map stringKey

/-- Nothing of an endpoint without uri is visited. -/
def endpointKeys (e : IcDeviceEndpoint) : List Key :=
  match e.uri with
  | none => []
  | some uri => stringKey uri :: (resourceKeys e.resources ++ metadataKeys e.metadata)

def deviceKeys (d : IcDevice) : List Key :=
  match d.uri with
  | none => []
  | some uri => stringKey uri :: (d.endpoints.flatMap endpointKeys ++
      (resourceKeys d.resources ++ metadataKeys d.metadata))

/-! ## What removal does -/

theorem filter_delete (idx : Index) (k : Key) (ks : List Key) :
    ((hashMapDelete idx k).1.items.filter fun item => item.1 ∉ ks) =
      idx.items.filter fun item => item.1 ∉ k :: ks := by
  rw [items_delete, filter_filter]
  refine filter_congr fun item _ => ?_
  by_cases h₁ : item.1 = k <;> by_cases h₂ : item.1 ∈ ks <;> simp [h₁, h₂]

theorem filter_filter_notMem (items : List (Key × Locator)) (ks ks' : List Key) :
    ((items.filter fun item => item.1 ∉ ks).filter fun item => item.1 ∉ ks') =
      items.filter fun item => item.1 ∉ ks ++ ks' := by
  rw [filter_filter]
  refine filter_congr fun item _ => ?_
  by_cases h₁ : item.1 ∈ ks <;> by_cases h₂ : item.1 ∈ ks' <;> simp [h₁, h₂]

theorem removeResources_items (rs : List IcDeviceResource) (idx : Index) :
    (rs.foldl removeDeviceResourceURIEntry idx).items =
      idx.items.filter fun item => item.1 ∉ resourceKeys rs := by
  induction rs generalizing idx with
  | nil => simp [resourceKeys]
  | cons r rs ih =>
    rw [foldl_cons, ih]
    cases hr : r.uri with
    -- a resource without uri is skipped
    | none =>
      have hkeys : resourceKeys (r :: rs) = resourceKeys rs := by simp [resourceKeys, hr]
      simp only [removeDeviceResourceURIEntry, hr, hkeys]
    | some uri =>
      simp only [removeDeviceResourceURIEntry, hr, resourceKeys, filterMap_cons, map_cons]
      exact filter_delete idx (stringKey uri) _

variable {idx idx' : Index} {d : IcDevice} {os os' : List Object}

theorem removeMetadata_items {ms : List IcDeviceMetadata}
    (h : ms.foldlM removeMetadataURIEntry idx = some idx') :
    idx'.items = idx.items.filter fun item => item.1 ∉ metadataKeys ms := by
  induction ms generalizing idx with
  | nil =>
    obtain rfl : idx = idx' := by simpa using h
    simp [metadataKeys]
  | cons m ms ih =>
    rw [foldlM_cons] at h
    cases hm : m.uri with
    -- metadata without uri is dereferenced, so there is no result
    | none => simp [removeMetadataURIEntry, hm] at h
    | some uri =>
      simp only [removeMetadataURIEntry, hm] at h
      rw [ih h]
      simp only [metadataKeys, hm, filterMap_cons, map_cons]
      exact filter_delete idx (stringKey uri) _

theorem removeEndpointURIEntries_spec {e : IcDeviceEndpoint}
    (h : removeEndpointURIEntries idx e = some idx') :
    idx'.items = idx.items.filter fun item => item.1 ∉ endpointKeys e := by
  cases he : e.uri with
  | none =>
    obtain rfl : idx = idx' := by simpa [removeEndpointURIEntries, he] using h
    simp [endpointKeys, he]
  | some uri =>
    simp only [removeEndpointURIEntries, he] at h
    rw [removeMetadata_items h, removeResources_items, filter_filter_notMem, filter_delete]
    simp [endpointKeys, he]

theorem removeEndpoints_items {es : List IcDeviceEndpoint}
    (h : es.foldlM removeEndpointURIEntries idx = some idx') :
    idx'.items = idx.items.filter fun item => item.1 ∉ es.flatMap endpointKeys := by
  -- the endpoints are visited one after the other, each filtering what is left
  induction es generalizing idx with
  | nil =>
    obtain rfl : idx = idx' := by simpa using h
    simp
  | cons e es ih =>
    rw [foldlM_cons, Option.bind_eq_bind, Option.bind_eq_some_iff] at h
    obtain ⟨idx₁, h₁, h₂⟩ := h
    rw [ih h₂, removeEndpointURIEntries_spec h₁, filter_filter_notMem, flatMap_cons]

/-- Removing a device's entries keeps exactly the entries whose key is none of
the device's, whoever they belong to. -/
theorem removeDeviceURIEntries_spec (h : removeDeviceURIEntries idx d = some idx') :
    idx'.items = idx.items.filter fun item => item.1 ∉ deviceKeys d := by
  cases hd : d.uri with
  | none =>
    obtain rfl : idx = idx' := by simpa [removeDeviceURIEntries, hd] using h
    simp [deviceKeys, hd]
  | some uri =>
    simp only [removeDeviceURIEntries, hd, Option.bind_eq_bind, Option.bind_eq_some_iff] at h
    obtain ⟨idx₁, h₁, h₂⟩ := h
    rw [removeMetadata_items h₂, removeResources_items, removeEndpoints_items h₁,
      filter_filter_notMem, filter_filter_notMem, filter_delete]
    simp [deviceKeys, hd]

/-! ## When removal is defined -/

theorem removeMetadata_isSome_iff (ms : List IcDeviceMetadata) (idx : Index) :
    (ms.foldlM removeMetadataURIEntry idx).isSome ↔ ∀ m ∈ ms, m.uri.isSome := by
  refine foldlM_isSome_iff (fun idx m => ?_) ms idx
  cases huri : m.uri <;> simp [removeMetadataURIEntry, huri]

theorem removeEndpointURIEntries_isSome_iff (idx : Index) (e : IcDeviceEndpoint) :
    (removeEndpointURIEntries idx e).isSome ↔
      (e.uri.isSome → ∀ m ∈ e.metadata, m.uri.isSome) := by
  unfold removeEndpointURIEntries
  cases e.uri with
  | none => simp
  | some uri => simpa using removeMetadata_isSome_iff e.metadata _

/-- Removing the entries of a device is undefined only for metadata without uri that it gets
to. -/
theorem removeDeviceURIEntries_isSome_iff (idx : Index) (d : IcDevice) :
    (removeDeviceURIEntries idx d).isSome ↔ (d.uri.isSome →
      (∀ e ∈ d.endpoints, e.uri.isSome → ∀ m ∈ e.metadata, m.uri.isSome) ∧
        ∀ m ∈ d.metadata, m.uri.isSome) := by
  unfold removeDeviceURIEntries
  cases d.uri with
  | none => simp
  | some uri =>
    have hendpoints := foldlM_isSome_iff removeEndpointURIEntries_isSome_iff d.endpoints
      (hashMapDelete idx (stringKey uri)).1
    simp only [Option.isSome_some, forall_const, ← hendpoints]
    cases d.endpoints.foldlM removeEndpointURIEntries (hashMapDelete idx (stringKey uri)).1 with
    | none => simp
    | some idx₁ => simpa using removeMetadata_isSome_iff d.metadata _

/-! ## What insertion does -/

/-- `op` is an insertion of the objects `os`: when it succeeds it has appended
their entries, when it stops it has appended entries with keys among `ks`, and
it succeeds whenever all uris are there, distinct and free. -/
structure Indexes (op : Fallible Index) (os : List Object) (ks : List Key) : Prop where
  success : ∀ {idx idx'}, op idx = some (idx', true) →
    Named os ∧ idx'.items = idx.items ++ entriesOf os
  stop : ∀ {idx idx' ok}, op idx = some (idx', ok) →
    ∃ added : List (Key × Locator), idx'.items = idx.items ++ added ∧ ∀ a ∈ added, a.1 ∈ ks
  complete : ∀ {idx : Index}, Named os →
    ((idx.items ++ entriesOf os).map Prod.fst).Nodup → ∃ idx', op idx = some (idx', true)

theorem named_append : Named (os ++ os') ↔ Named os ∧ Named os' := by
  simp only [Named, mem_append]
  exact ⟨fun h => ⟨fun o ho => h o (.inl ho), fun o ho => h o (.inr ho)⟩,
    fun h o ho => ho.elim (h.1 o) (h.2 o)⟩

theorem entriesOf_append (os os' : List Object) :
    entriesOf (os ++ os') = entriesOf os ++ entriesOf os' := filterMap_append

theorem Indexes.succeed : Indexes .succeed [] [] where
  success h := by
    simp only [Fallible.succeed, Option.some.injEq, Prod.mk.injEq, and_true] at h
    exact ⟨by simp [Named], by simp [h, entriesOf]⟩
  stop h := by
    simp only [Fallible.succeed, Option.some.injEq, Prod.mk.injEq] at h
    exact ⟨[], by simp [h.1], by simp⟩
  complete _ _ := ⟨_, rfl⟩

/-- An operation that never succeeds and changes nothing inserts objects one of
which has no uri. -/
theorem Indexes.of_unnamed {op : Fallible Index} (hos : ¬ Named os)
    (hop : ∀ idx idx' ok, op idx = some (idx', ok) → ok = false ∧ idx' = idx) :
    Indexes op os [] where
  success h := absurd (hop _ _ _ h).1 (by simp)
  stop h := ⟨[], by simp [(hop _ _ _ h).2], by simp⟩
  complete h _ := absurd h hos

theorem Indexes.refuse (hos : ¬ Named os) : Indexes .refuse os [] := by
  refine .of_unnamed hos fun idx idx' ok h => ?_
  simp only [Fallible.refuse, Option.some.injEq, Prod.mk.injEq] at h
  exact ⟨h.2.symm, h.1.symm⟩

theorem Indexes.put (uri : CString) (l : Locator) :
    Indexes (putLocator uri l) [(some uri, l)] [stringKey uri] where
  success {idx idx'} h := by
    simp only [putLocator, Option.some.injEq, Prod.ext_iff] at h
    obtain ⟨rfl, hok⟩ := h
    exact ⟨by simp [Named],
      by simpa [entriesOf] using items_put_of_free l ((hashMapPut_snd idx _ l).mp hok)⟩
  stop {idx idx' ok} h := by
    simp only [putLocator, Option.some.injEq, Prod.ext_iff] at h
    obtain ⟨rfl, -⟩ := h
    -- a taken key leaves the index as it is
    cases hget : hashMapGet idx (stringKey uri) with
    | none => exact ⟨[(stringKey uri, l)], items_put_of_free l hget, by simp⟩
    | some w => exact ⟨[], by simp [hashMapPut_of_taken hget], by simp⟩
  complete {idx} _ hnd := by
    have hfree : hashMapGet idx (stringKey uri) = none := by
      rw [hashMapGet_eq_none_iff]
      rw [map_append, nodup_append] at hnd
      exact fun hmem => hnd.2.2 _ hmem _ (by simp [entriesOf]) rfl
    exact ⟨_, by rw [putLocator, Option.some.injEq, Prod.ext_iff]
                 exact ⟨rfl, (hashMapPut_snd idx _ l).mpr hfree⟩⟩

theorem Indexes.andThen {p q : Fallible Index} {ks ks' : List Key} (hp : Indexes p os ks)
    (hq : Indexes q os' ks') :
    Indexes (p.andThen q) (os ++ os') (ks ++ ks') where
  success h := by
    obtain ⟨idx₁, h₁, h₂⟩ := Fallible.andThen_eq_true.mp h
    obtain ⟨hn₁, hi₁⟩ := hp.success h₁
    obtain ⟨hn₂, hi₂⟩ := hq.success h₂
    exact ⟨named_append.mpr ⟨hn₁, hn₂⟩, by rw [hi₂, hi₁, entriesOf_append, append_assoc]⟩
  stop h := by
    obtain ⟨h₁, -⟩ | ⟨idx₁, h₁, h₂⟩ := Fallible.andThen_cases h
    · obtain ⟨added, hi, hk⟩ := hp.stop h₁
      exact ⟨added, hi, fun a ha => mem_append_left _ (hk a ha)⟩
    · obtain ⟨added₁, hi₁, hk₁⟩ := hp.stop h₁
      obtain ⟨added₂, hi₂, hk₂⟩ := hq.stop h₂
      refine ⟨added₁ ++ added₂, by rw [hi₂, hi₁, append_assoc], fun a ha => ?_⟩
      exact (mem_append.mp ha).elim (fun h => mem_append_left _ (hk₁ a h))
        (fun h => mem_append_right _ (hk₂ a h))
  complete {idx} hn hnd := by
    obtain ⟨hn₁, hn₂⟩ := named_append.mp hn
    rw [entriesOf_append, ← append_assoc] at hnd
    have hnd₁ : ((idx.items ++ entriesOf os).map Prod.fst).Nodup := by
      rw [map_append] at hnd
      exact (nodup_append.mp hnd).1
    obtain ⟨idx₁, h₁⟩ := hp.complete hn₁ hnd₁
    -- the second operation starts from what the first has appended
    rw [← (hp.success h₁).2] at hnd
    obtain ⟨idx₂, h₂⟩ := hq.complete hn₂ hnd
    exact ⟨idx₂, Fallible.andThen_eq_true.mpr ⟨idx₁, h₁, h₂⟩⟩

theorem Indexes.forEach {α : Type*} {f : α → Fallible Index} {os : α → List Object}
    {ks : α → List Key} (hf : ∀ a, Indexes (f a) (os a) (ks a)) (as : List α) :
    Indexes (.forEach f as) (as.flatMap os) (as.flatMap ks) := by
  induction as with
  | nil => exact Indexes.succeed
  | cons a as ih => exact (hf a).andThen ih

theorem not_named_of_mem {l : Locator} (h : (none, l) ∈ os) : ¬ Named os :=
  fun hn => by simpa using hn _ h

theorem addDeviceResourceURIEntry_indexes (entry : Key) (endpoint : Option Nat)
    (r : IcDeviceResource × Nat) :
    Indexes (addDeviceResourceURIEntry entry endpoint r)
      [(r.1.uri, .resource entry endpoint r.2)] (resourceKeys [r.1]) := by
  cases hr : r.1.uri with
  | none =>
    simp only [addDeviceResourceURIEntry, hr, resourceKeys, filterMap_cons]
    exact .refuse (not_named_of_mem mem_cons_self)
  | some uri =>
    simpa [addDeviceResourceURIEntry, hr, resourceKeys] using
      Indexes.put uri (.resource entry endpoint r.2)

theorem addDeviceMetadataURIEntry_indexes (entry : Key) (endpoint : Option Nat)
    (m : IcDeviceMetadata × Nat) :
    Indexes (addDeviceMetadataURIEntry entry endpoint m)
      [(m.1.uri, .metadata entry endpoint m.2)] (metadataKeys [m.1]) := by
  cases hm : m.1.uri with
  | none =>
    simp only [addDeviceMetadataURIEntry, hm, metadataKeys, filterMap_cons]
    exact .of_unnamed (not_named_of_mem mem_cons_self) fun idx idx' ok h => by cases h
  | some uri =>
    simpa [addDeviceMetadataURIEntry, hm, metadataKeys] using
      Indexes.put uri (.metadata entry endpoint m.2)

theorem flatMap_fst_zipIdx {α β : Type*} (f : α → List β) (l : List α) (n : Nat) :
    ((l.zipIdx n).flatMap fun p => f p.1) = l.flatMap f := by
  induction l generalizing n with
  | nil => rfl
  | cons a l ih => rw [zipIdx_cons, flatMap_cons, flatMap_cons, ih]

theorem Indexes.forEach_items {α : Type*} {uri : α → Option CString} {l : α × Nat → Locator}
    {f : α × Nat → Fallible Index}
    (hf : ∀ a, Indexes (f a) [(uri a.1, l a)] (([a.1].filterMap uri).map stringKey))
    (as : List α) :
    Indexes (.forEach f as.zipIdx) (as.zipIdx.map fun a => (uri a.1, l a))
      ((as.filterMap uri).map stringKey) := by
  have hkeys : (as.flatMap fun a => ([a].filterMap uri).map stringKey) =
      (as.filterMap uri).map stringKey := by
    induction as with
    | nil => rfl
    | cons a as ih =>
      rw [flatMap_cons, ih]
      cases ha : uri a <;> simp [ha]
  have h := Indexes.forEach hf as.zipIdx
  rwa [flatMap_fst_zipIdx (fun a => ([a].filterMap uri).map stringKey), hkeys,
    ← map_eq_flatMap] at h

theorem addEndpointURIEntries_indexes (entry : Key) (e : IcDeviceEndpoint × Nat) :
    Indexes (addEndpointURIEntries entry e) (endpointObjects entry e) (endpointKeys e.1) := by
  cases he : e.1.uri with
  | none =>
    simp only [addEndpointURIEntries, he, endpointKeys]
    refine .refuse (not_named_of_mem (l := .endpoint entry e.2) ?_)
    simp [endpointObjects, he]
  | some uri =>
    have h := ((Indexes.put uri (.endpoint entry e.2)).andThen
      (.forEach_items (addDeviceResourceURIEntry_indexes entry (some e.2)) e.1.resources)).andThen
      (.forEach_items (addDeviceMetadataURIEntry_indexes entry (some e.2)) e.1.metadata)
    simpa [addEndpointURIEntries, endpointObjects, resourceObjects, metadataObjects,
      endpointKeys, resourceKeys, metadataKeys, he] using h

/-- Insertion appends the entries of the device's objects, or stops after adding some of the visited
uris. -/
theorem insertDeviceURIEntries_indexes (entry : Key) (d : IcDevice) :
    Indexes (insertDeviceURIEntries entry d) (deviceObjects entry d) (deviceKeys d) := by
  cases hd : d.uri with
  | none =>
    simp only [insertDeviceURIEntries, hd, deviceKeys]
    refine .refuse (not_named_of_mem (l := .device entry) ?_)
    simp [deviceObjects, hd]
  | some uri =>
    -- the parts of the device in the order in which the source inserts them
    have hes := Indexes.forEach (addEndpointURIEntries_indexes entry) d.endpoints.zipIdx
    rw [flatMap_fst_zipIdx endpointKeys] at hes
    have h := (((Indexes.put uri (.device entry)).andThen hes).andThen
      (.forEach_items (addDeviceResourceURIEntry_indexes entry none) d.resources)).andThen
      (.forEach_items (addDeviceMetadataURIEntry_indexes entry none) d.metadata)
    simpa [insertDeviceURIEntries, deviceObjects, resourceObjects, metadataObjects,
      deviceKeys, resourceKeys, metadataKeys, hd] using h

/-- The two outcomes of adding a device: its objects are appended to the index,
or every entry with one of its keys is gone. -/
theorem addDeviceURIEntries_cases {entry : Key} {ok : Bool}
    (h : addDeviceURIEntries entry d idx = some (idx', ok)) :
    (ok = true ∧ Named (deviceObjects entry d) ∧
      idx'.items = idx.items ++ entriesOf (deviceObjects entry d)) ∨
    (ok = false ∧ idx'.items = idx.items.filter fun item => item.1 ∉ deviceKeys d) := by
  simp only [addDeviceURIEntries, Option.bind_eq_bind, Option.bind_eq_some_iff] at h
  obtain ⟨⟨idx₁, ok₁⟩, h₁, h₂⟩ := h
  cases ok₁ with
  | true =>
    cases h₂
    exact .inl ⟨rfl, (insertDeviceURIEntries_indexes entry d).success h₁⟩
  | false =>
    simp only [Bool.false_eq_true, if_false, Option.bind_eq_some_iff, Option.some.injEq,
      Prod.mk.injEq] at h₂
    obtain ⟨idx₂, h₂, rfl, rfl⟩ := h₂
    obtain ⟨added, hi, hk⟩ := (insertDeviceURIEntries_indexes entry d).stop h₁
    refine .inr ⟨rfl, ?_⟩
    -- whatever was inserted before the failure has a key of the device
    have hnone : (added.filter fun item => item.1 ∉ deviceKeys d) = [] :=
      filter_eq_nil_iff.mpr fun a ha => by simpa using hk a ha
    rw [removeDeviceURIEntries_spec h₂, hi, filter_append, hnone, append_nil]

end ZilkerSdk.Device.Database

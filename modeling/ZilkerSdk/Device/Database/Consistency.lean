import ZilkerSdk.Device.Database.Effects
import ZilkerSdk.Lib.Run

/-!
# Consistency of the uri index

The index `resourcesByUri` should hold one locator for every object reachable
from the devices, under the object's own uri, and nothing else.  Operations that
fail while adding clean up by uri, so they can take entries of other devices
with them; `Undisturbed` is the condition on a call that excludes this.
-/

namespace ZilkerSdk.Device.Database

open Types Lib List Option

variable {db db' : JsonDatabase} {k : Key}

/-! ## Objects by locator -/

/-- The uri of the object a locator leads to inside a device. -/
def uriAt (d : IcDevice) : Locator → Option (Option CString)
  | .device _ => some d.uri
  | .endpoint _ i => d.endpoints[i]?.map (·.uri)
  | .resource _ none j => d.resources[j]?.map (·.uri)
  | .resource _ (some i) j => d.endpoints[i]?.bind fun e => e.resources[j]?.map (·.uri)
  | .metadata _ none j => d.metadata[j]?.map (·.uri)
  | .metadata _ (some i) j => d.endpoints[i]?.bind fun e => e.metadata[j]?.map (·.uri)

variable {endpoint : Option Nat} {u : Option CString} {l : Locator} {ms : List IcDeviceMetadata}
  {e old : IcDeviceEndpoint} {i j : Nat} {d d' : IcDevice} {os : List Object} {ks : List Key}
  {entry : DeviceCacheEntry} {dirty : Bool} {idx idx' : Index}

theorem mem_itemObjects {α : Type*} (uri : α → Option CString) (locator : Nat → Locator)
    (as : List α) : (u, l) ∈ as.zipIdx.map (fun a => (uri a.1, locator a.2)) ↔
      ∃ j, l = locator j ∧ as[j]?.map uri = some u := by
  simp only [List.mem_map, Prod.exists, mem_zipIdx_iff_getElem?, Prod.mk.injEq, map_eq_some_iff]
  constructor
  · rintro ⟨a, j, ha, hu, hl⟩
    exact ⟨j, hl.symm, a, ha, hu⟩
  · rintro ⟨j, hl, a, ha, hu⟩
    exact ⟨a, j, ha, hu, hl.symm⟩

theorem mem_resourceObjects {rs : List IcDeviceResource} :
    (u, l) ∈ resourceObjects k endpoint rs ↔
      ∃ j, l = .resource k endpoint j ∧ rs[j]?.map (·.uri) = some u :=
  mem_itemObjects IcDeviceResource.uri (.resource k endpoint) rs

theorem mem_metadataObjects :
    (u, l) ∈ metadataObjects k endpoint ms ↔
      ∃ j, l = .metadata k endpoint j ∧ ms[j]?.map (·.uri) = some u :=
  mem_itemObjects IcDeviceMetadata.uri (.metadata k endpoint) ms

theorem mem_endpointObjects :
    (u, l) ∈ endpointObjects k (e, i) ↔
      (l = .endpoint k i ∧ u = e.uri) ∨
      (∃ j, l = .resource k (some i) j ∧ e.resources[j]?.map (·.uri) = some u) ∨
      ∃ j, l = .metadata k (some i) j ∧ e.metadata[j]?.map (·.uri) = some u := by
  simp only [endpointObjects, mem_cons, mem_append, mem_resourceObjects,
    mem_metadataObjects, Prod.mk.injEq, and_comm]

theorem mem_deviceObjects : (u, l) ∈ deviceObjects k d ↔ l.entry = k ∧ uriAt d l = some u := by
  simp only [deviceObjects, mem_cons, mem_append, mem_flatMap, Prod.exists,
    mem_zipIdx_iff_getElem?, mem_endpointObjects, mem_resourceObjects, mem_metadataObjects,
    Prod.mk.injEq]
  constructor
  · rintro (⟨rfl, rfl⟩ | ⟨e, i, he, ⟨rfl, rfl⟩ | ⟨j, rfl, hj⟩ | ⟨j, rfl, hj⟩⟩ |
      ⟨j, rfl, hj⟩ | ⟨j, rfl, hj⟩)
    · exact ⟨rfl, rfl⟩
    · exact ⟨rfl, by simp [uriAt, he]⟩
    · exact ⟨rfl, by simpa [uriAt, he] using hj⟩
    · exact ⟨rfl, by simpa [uriAt, he] using hj⟩
    · exact ⟨rfl, hj⟩
    · exact ⟨rfl, hj⟩
  · rintro ⟨rfl, hu⟩
    -- one case for each place an object can have in a device
    cases l with
    | device k => exact .inl ⟨(some.inj hu).symm, rfl⟩
    | endpoint k i =>
      obtain ⟨e, he, hu⟩ := map_eq_some_iff.mp hu
      exact .inr (.inl ⟨e, i, he, .inl ⟨rfl, hu.symm⟩⟩)
    | resource k endpoint j =>
      cases endpoint with
      | none => exact .inr (.inr (.inl ⟨j, rfl, hu⟩))
      | some i =>
        obtain ⟨e, he, hu⟩ := bind_eq_some_iff.mp hu
        exact .inr (.inl ⟨e, i, he, .inr (.inl ⟨j, rfl, hu⟩)⟩)
    | metadata k endpoint j =>
      cases endpoint with
      | none => exact .inr (.inr (.inr ⟨j, rfl, hu⟩))
      | some i =>
        obtain ⟨e, he, hu⟩ := bind_eq_some_iff.mp hu
        exact .inr (.inl ⟨e, i, he, .inr (.inr ⟨j, rfl, hu⟩)⟩)

theorem mem_entriesOf {key : Key} :
    (key, l) ∈ entriesOf os ↔ ∃ uri, (some uri, l) ∈ os ∧ stringKey uri = key := by
  simp only [entriesOf, mem_filterMap, map_eq_some_iff, Prod.mk.injEq, Prod.exists]
  constructor
  · rintro ⟨u, l', hmem, uri, rfl, hkey, rfl⟩
    exact ⟨uri, hmem, hkey⟩
  · rintro ⟨uri, hmem, hkey⟩
    exact ⟨some uri, l, hmem, uri, rfl, hkey, rfl⟩

/-! ## The invariant -/

/-- The database holds an object with uri `u` at the locator `l`. -/
def Holds (db : JsonDatabase) (u : Option CString) (l : Locator) : Prop :=
  ∃ entry, hashMapGet db.devices l.entry = some entry ∧ uriAt entry.device l = some u

theorem Holds.unique {u' : Option CString} (h : Holds db u l) (h' : Holds db u' l) : u = u' := by
  obtain ⟨entry, hentry, hu⟩ := h
  obtain ⟨entry', hentry', hu'⟩ := h'
  cases hentry.symm.trans hentry'
  exact some.inj (hu.symm.trans hu')

/-- The index holds exactly one locator for every object of the database, under
the object's uri, and no other entry. -/
structure IndexConsistent (db : JsonDatabase) : Prop where
  named : ∀ u l, Holds db u l → u ≠ none
  indexed : ∀ uri l, Holds db (some uri) l →
    hashMapGet db.resourcesByUri (stringKey uri) = some l
  sound : ∀ key l, hashMapGet db.resourcesByUri key = some l →
    ∃ uri, Holds db (some uri) l ∧ stringKey uri = key
  single : ∀ key key' l, hashMapGet db.resourcesByUri key = some l →
    hashMapGet db.resourcesByUri key' = some l → key = key'

/-- No endpoint has been destroyed while it is still in the list of its device. -/
def NoneDestroyed (db : JsonDatabase) : Prop :=
  ∀ k entry, hashMapGet db.devices k = some entry → entry.destroyedEndpoints = []

/-- The inductive invariant. -/
structure IndexInv (db : JsonDatabase) : Prop where
  named : ∀ u l, Holds db u l → u ≠ none
  exact : ∀ key l, hashMapGet db.resourcesByUri key = some l ↔
    ∃ uri, Holds db (some uri) l ∧ stringKey uri = key
  alive : NoneDestroyed db

theorem IndexInv.consistent (h : IndexInv db) : IndexConsistent db where
  named := h.named
  indexed uri l hu := (h.exact _ l).mpr ⟨uri, hu, rfl⟩
  sound key l := (h.exact key l).mp
  single key key' l hkey hkey' := by
    obtain ⟨uri, hu, rfl⟩ := (h.exact key l).mp hkey
    obtain ⟨uri', hu', rfl⟩ := (h.exact key' l).mp hkey'
    rw [some.inj (hu.unique hu')]

/-- A change that drops the objects and the index entries at the locators
`gone`, and adds the named objects `new` with their entries, keeps the index
consistent.  Every operation that keeps it is of this kind. -/
theorem IndexInv.change (h : IndexInv db) (gone : Locator → Prop) (new : List Object)
    (hnew : Named new)
    (hobjects : ∀ u l, Holds db' u l ↔ (Holds db u l ∧ ¬ gone l) ∨ (u, l) ∈ new)
    (hindex : ∀ key l, hashMapGet db'.resourcesByUri key = some l ↔
      (hashMapGet db.resourcesByUri key = some l ∧ ¬ gone l) ∨ (key, l) ∈ entriesOf new)
    (halive : NoneDestroyed db') : IndexInv db' where
  named u l hu := by
    obtain ⟨hu, -⟩ | hu := (hobjects u l).mp hu
    · exact h.named u l hu
    · exact isSome_iff_ne_none.mp (hnew _ hu)
  exact key l := by
    -- what is left of the old objects, and the new ones
    rw [hindex, h.exact, mem_entriesOf]
    constructor
    · rintro (⟨⟨uri, hu, hkey⟩, hgone⟩ | ⟨uri, hu, hkey⟩)
      · exact ⟨uri, (hobjects _ _).mpr (.inl ⟨hu, hgone⟩), hkey⟩
      · exact ⟨uri, (hobjects _ _).mpr (.inr hu), hkey⟩
    · rintro ⟨uri, hu, hkey⟩
      obtain ⟨hu, hgone⟩ | hu := (hobjects _ _).mp hu
      · exact .inl ⟨⟨uri, hu, hkey⟩, hgone⟩
      · exact .inr ⟨uri, hu, hkey⟩
  alive := halive

/-- Filtering the index by the keys of objects that are there drops exactly the
entries of these objects. -/
theorem IndexInv.key_mem_iff (h : IndexInv db) (hos : ∀ u l, (u, l) ∈ os → Holds db u l)
    (hks : ∀ key, key ∈ ks ↔ ∃ l, (key, l) ∈ entriesOf os) {key : Key}
    (hget : hashMapGet db.resourcesByUri key = some l) : key ∈ ks ↔ ∃ u, (u, l) ∈ os := by
  rw [hks]
  constructor
  · rintro ⟨l', hl'⟩
    obtain ⟨uri, hmem, hkey⟩ := mem_entriesOf.mp hl'
    -- the entry under this key is that of the object, and there is only one
    have hget' := (h.exact key l').mpr ⟨uri, hos _ _ hmem, hkey⟩
    cases hget.symm.trans hget'
    exact ⟨_, hmem⟩
  · rintro ⟨u, hmem⟩
    obtain ⟨uri, hu, hkey⟩ := (h.exact key l).mp hget
    obtain rfl := (hos _ _ hmem).unique hu
    exact ⟨l, mem_entriesOf.mpr ⟨uri, hmem, hkey⟩⟩

/-! ## The keys of objects -/

theorem keys_itemObjects {α : Type*} (uri : α → Option CString) (locator : Nat → Locator)
    (as : List α) : (entriesOf (as.zipIdx.map fun a => (uri a.1, locator a.2))).map Prod.fst =
      (as.filterMap uri).map stringKey := by
  have hzip := congrArg (filterMap fun a => (uri a).map stringKey) (zipIdx_map_fst 0 as)
  rw [filterMap_map] at hzip
  simp only [entriesOf, map_filterMap, filterMap_map, Function.comp_def, Option.map_map]
  exact hzip

theorem keys_resourceObjects (endpoint : Option Nat) (rs : List IcDeviceResource) :
    (entriesOf (resourceObjects k endpoint rs)).map Prod.fst = resourceKeys rs :=
  keys_itemObjects IcDeviceResource.uri (.resource k endpoint) rs

theorem keys_metadataObjects (endpoint : Option Nat) (ms : List IcDeviceMetadata) :
    (entriesOf (metadataObjects k endpoint ms)).map Prod.fst = metadataKeys ms :=
  keys_itemObjects IcDeviceMetadata.uri (.metadata k endpoint) ms

theorem keys_endpointObjects {e : IcDeviceEndpoint × Nat} (he : e.1.uri ≠ none) :
    (entriesOf (endpointObjects k e)).map Prod.fst = endpointKeys e.1 := by
  obtain ⟨uri, huri⟩ := ne_none_iff_exists'.mp he
  have hsplit : entriesOf (endpointObjects k e) = (stringKey uri, .endpoint k e.2) ::
      (entriesOf (resourceObjects k (some e.2) e.1.resources) ++
        entriesOf (metadataObjects k (some e.2) e.1.metadata)) := by
    simp [endpointObjects, entriesOf, huri]
  rw [hsplit, map_cons, map_append, keys_resourceObjects, keys_metadataObjects, endpointKeys, huri]

theorem keys_deviceObjects (hnamed : Named (deviceObjects k d)) :
    (entriesOf (deviceObjects k d)).map Prod.fst = deviceKeys d := by
  have hself : d.uri.isSome := hnamed (d.uri, .device k) (by simp [deviceObjects])
  obtain ⟨uri, huri⟩ := isSome_iff_exists.mp hself
  have hendpoints : (entriesOf (d.endpoints.zipIdx.flatMap (endpointObjects k))).map Prod.fst =
      d.endpoints.flatMap endpointKeys := by
    rw [← flatMap_fst_zipIdx endpointKeys d.endpoints 0, entriesOf, filterMap_flatMap, map_flatMap]
    refine flatMap_congr fun e he => keys_endpointObjects ?_
    -- an endpoint without uri would hide its resources from removal
    have hmem : (e.1.uri, .endpoint k e.2) ∈ deviceObjects k d := by
      rw [mem_deviceObjects]
      exact ⟨rfl, by simp [uriAt, mem_zipIdx_iff_getElem?.mp he]⟩
    exact isSome_iff_ne_none.mp (hnamed _ hmem)
  have hsplit : entriesOf (deviceObjects k d) = (stringKey uri, .device k) ::
      (entriesOf (d.endpoints.zipIdx.flatMap (endpointObjects k)) ++
        (entriesOf (resourceObjects k none d.resources) ++
          entriesOf (metadataObjects k none d.metadata))) := by
    simp [deviceObjects, entriesOf, huri]
  rw [hsplit, map_cons, map_append, map_append, hendpoints, keys_resourceObjects,
    keys_metadataObjects, deviceKeys, huri]

theorem mem_map_fst_iff (h : (entriesOf os).map Prod.fst = ks) (key : Key) :
    key ∈ ks ↔ ∃ l, (key, l) ∈ entriesOf os := by
  rw [← h]
  simp

/-! ## Replacing a device -/

theorem holds_iff_mem (hentry : hashMapGet db.devices k = some entry) (hl : l.entry = k) :
    Holds db u l ↔ (u, l) ∈ deviceObjects k entry.device := by
  subst hl
  rw [mem_deviceObjects, Holds]
  simp [hentry]

theorem holds_replaced (hrep : Replaced db db' k entry d' dirty) {gone : Locator → Prop}
    {new : List Object} (hgone : ∀ l, gone l → l.entry = k)
    (hobjects : ∀ u l, (u, l) ∈ deviceObjects k d' ↔
      ((u, l) ∈ deviceObjects k entry.device ∧ ¬ gone l) ∨ (u, l) ∈ new) (u : Option CString)
    (l : Locator) : Holds db' u l ↔ (Holds db u l ∧ ¬ gone l) ∨ (u, l) ∈ new := by
  -- the locator leads into the replaced device or into another one
  by_cases hl : l.entry = k
  · have hentry' : hashMapGet db'.devices k = some { entry with device := d', dirty := dirty } := by
      rw [hrep.lookup, if_pos rfl]
    rw [holds_iff_mem hentry' hl, holds_iff_mem hrep.found hl]
    exact hobjects u l
  · have hnotNew : (u, l) ∉ new := fun hmem =>
      hl (mem_deviceObjects.mp ((hobjects u l).mpr (.inr hmem))).1
    have hnotGone : ¬ gone l := fun hg => hl (hgone l hg)
    simp [Holds, hrep.lookup, hl, hnotNew, hnotGone]

/-- Replacing the device of one entry keeps the index consistent if the index
changes in the same way as the objects of this device. -/
theorem IndexInv.replaced (h : IndexInv db) (hrep : Replaced db db' k entry d' dirty)
    (gone : Locator → Prop) (new : List Object) (hgone : ∀ l, gone l → l.entry = k)
    (hnew : Named new) (hobjects : ∀ u l, (u, l) ∈ deviceObjects k d' ↔
      ((u, l) ∈ deviceObjects k entry.device ∧ ¬ gone l) ∨ (u, l) ∈ new)
    (hindex : ∀ key l, hashMapGet db'.resourcesByUri key = some l ↔
      (hashMapGet db.resourcesByUri key = some l ∧ ¬ gone l) ∨ (key, l) ∈ entriesOf new) :
    IndexInv db' := by
  refine h.change gone new hnew (holds_replaced hrep hgone hobjects) hindex ?_
  intro k' entry' hentry'
  rw [hrep.lookup] at hentry'
  split at hentry'
  · cases hentry'
    exact h.alive k entry hrep.found
  · exact h.alive _ _ hentry'

theorem mem_index_append {new : List (Key × Locator)} (h : idx'.items = idx.items ++ new)
    (key : Key) (l : Locator) :
    hashMapGet idx' key = some l ↔ hashMapGet idx key = some l ∨ (key, l) ∈ new := by
  rw [← mem_items_iff, ← mem_items_iff, h, mem_append]

theorem mem_index_filter (h : idx'.items = idx.items.filter fun item => item.1 ∉ ks) (key : Key)
    (l : Locator) : hashMapGet idx' key = some l ↔ hashMapGet idx key = some l ∧ key ∉ ks := by
  rw [← mem_items_iff, ← mem_items_iff, h]
  simp

/-! ## Condition on a call -/

/-- The objects `os` can be appended to an index with the given items: they have
uris, and no key repeats. -/
def Indexable (items : List (Key × Locator)) (os : List Object) : Prop :=
  Named os ∧ ((items ++ entriesOf os).map Prod.fst).Nodup

instance (os : List Object) : Decidable (Named os) :=
  inferInstanceAs (Decidable (∀ o ∈ os, o.1.isSome))

instance (items : List (Key × Locator)) (os : List Object) : Decidable (Indexable items os) :=
  inferInstanceAs (Decidable (_ ∧ _))

theorem Indexable.not_refused {e : IcDeviceEndpoint × Nat}
    (hok : Indexable idx.items (endpointObjects k e)) :
    addEndpointURIEntries k e idx ≠ some (idx', false) := by
  intro hrefused
  obtain ⟨idx₁, hidx₁⟩ := (addEndpointURIEntries_indexes k e).complete hok.1 hok.2
  exact absurd (hidx₁.symm.trans hrefused) (by simp)

theorem Indexable.locator_unique {items : List (Key × Locator)} (hok : Indexable items os)
    {uri : CString} {l' : Locator} (hl : (some uri, l) ∈ os) (hl' : (some uri, l') ∈ os) :
    l = l' := by
  have hmem : (stringKey uri, l) ∈ items ++ entriesOf os :=
    mem_append_right _ (mem_entriesOf.mpr ⟨uri, hl, rfl⟩)
  have hmem' : (stringKey uri, l') ∈ items ++ entriesOf os :=
    mem_append_right _ (mem_entriesOf.mpr ⟨uri, hl', rfl⟩)
  exact (Prod.mk.inj (inj_on_of_nodup_map hok.2 hmem hmem' rfl)).2

/-- None of the keys of a device is in the index. -/
def KeysFree (db : JsonDatabase) (d : IcDevice) : Prop :=
  ∀ key ∈ deviceKeys d, hashMapGet db.resourcesByUri key = none

instance (db : JsonDatabase) (d : IcDevice) : Decidable (KeysFree db d) :=
  inferInstanceAs (Decidable (∀ key ∈ deviceKeys d, _))

/-- The endpoint a uri leads to, with its entry and its position. -/
def findEndpoint (db : JsonDatabase) (uri : CString) : Option (Key × Nat × IcDeviceEndpoint) :=
  match hashMapGet db.resourcesByUri (stringKey uri) with
  | some (.endpoint k i) => (derefEndpoint db k i).map fun e => (k, i, e)
  | _ => none

/-- The call can neither collide with a uri that is in the index nor fail to
index a new object:

* a device to add has no uri that is in the index;
* an endpoint to add to a device that is there can be indexed;
* the resources that come with a new profile version can be indexed once the old
  ones are gone. -/
def Undisturbed (db : JsonDatabase) : Op → Prop
  | .addDevice device _ => ∀ d ∈ device, d.uuid ≠ none → KeysFree db d
  | .addEndpoint endpoint _ => ∀ e ∈ endpoint, ∀ uuid ∈ e.deviceUuid, e.id ≠ none →
      ∀ entry ∈ hashMapGet db.devices (stringKey uuid), Indexable db.resourcesByUri.items
        (endpointObjects (stringKey uuid) (e, entry.device.endpoints.length))
  | .saveEndpoint endpoint _ => ∀ e ∈ endpoint, ∀ uri ∈ e.uri, ∀ t ∈ findEndpoint db uri,
      t.2.2.profileVersion ≠ e.profileVersion → Indexable
        (db.resourcesByUri.items.filter fun item => item.1 ∉ resourceKeys t.2.2.resources)
        (resourceObjects t.1 (some t.2.1) e.resources)
  | _ => True

instance (db : JsonDatabase) (op : Op) : Decidable (Undisturbed db op) := by
  delta Undisturbed
  split <;> infer_instance

/-! ## One call -/

theorem holds_accepted (hacc : Accepted db db' k d) (u : Option CString) (l : Locator) :
    Holds db' u l ↔ (Holds db u l ∧ ¬ False) ∨ (u, l) ∈ deviceObjects k d := by
  -- under the new uuid there was no object before
  by_cases hl : l.entry = k
  · simp [Holds, hacc.lookup, hl, hacc.free, mem_deviceObjects]
  · simp [Holds, hacc.lookup, hl, mem_deviceObjects]

theorem IndexInv.accepted (h : IndexInv db) (hacc : Accepted db db' k d) : IndexInv db' := by
  refine h.change (fun _ => False) _ hacc.named (holds_accepted hacc)
    (fun key l => by simpa using mem_index_append hacc.index key l) fun k' entry hentry => ?_
  rw [hacc.lookup] at hentry
  split at hentry
  · cases hentry
    rfl
  · exact h.alive _ _ hentry

theorem filter_eq_self_of_keysFree (h : KeysFree db d) :
    (db.resourcesByUri.items.filter fun item => item.1 ∉ deviceKeys d) =
      db.resourcesByUri.items := by
  refine filter_eq_self.mpr fun item hitem => ?_
  have hget : hashMapGet db.resourcesByUri item.1 = some item.2 := mem_items_iff.mp hitem
  simpa using fun hmem => absurd (h _ hmem) (by simp [hget])

theorem IndexInv.rejected (h : IndexInv db) (hrej : Rejected db db' d) (hfree : KeysFree db d) :
    IndexInv db' := by
  have hlookup := fun k' => hashMapGet_congr hrej.devices k'
  have hindex := hashMapGet_congr (hrej.index.trans (filter_eq_self_of_keysFree hfree))
  exact h.change (fun _ => False) [] (by simp [Named]) (by simp [Holds, hlookup])
    (by simp [entriesOf, hindex]) fun k' entry hentry => h.alive k' entry (hlookup k' ▸ hentry)

theorem mem_deviceObjects_withNewEndpoint :
    (u, l) ∈ deviceObjects k (withNewEndpoint e d) ↔
      (u, l) ∈ deviceObjects k d ∨ (u, l) ∈ endpointObjects k (e, d.endpoints.length) := by
  simp only [deviceObjects, withNewEndpoint, zipIdx_append, flatMap_append,
    zipIdx_cons, zipIdx_nil, flatMap_cons, flatMap_nil, append_nil,
    mem_cons, mem_append, Nat.zero_add]
  tauto

theorem IndexInv.updated_same (h : IndexInv db) (hupd : Updated db db' k entry d')
    (hidx : db'.resourcesByUri = db.resourcesByUri)
    (huri : ∀ l, uriAt d' l = uriAt entry.device l) : IndexInv db' := by
  obtain ⟨_, hrep⟩ := hupd.replaced
  exact h.replaced hrep (fun _ => False) [] (by simp) (by simp [Named])
    (fun u l => by simp [mem_deviceObjects, huri]) (fun key l => by simp [hidx, entriesOf])

theorem uriAt_withEndpoint {f : IcDeviceEndpoint → IcDeviceEndpoint} (huri : ∀ e, (f e).uri = e.uri)
    (hres : ∀ (e : IcDeviceEndpoint) (j : Nat),
      (f e).resources[j]?.map (·.uri) = e.resources[j]?.map (·.uri))
    (hmeta : ∀ (e : IcDeviceEndpoint) (j : Nat),
      (f e).metadata[j]?.map (·.uri) = e.metadata[j]?.map (·.uri)) (l : Locator) :
    uriAt (withEndpoint i f d) l = uriAt d l := by
  -- a locator inside the changed endpoint, inside another one, or outside
  rcases l with _ | ⟨_, i'⟩ | ⟨_, _ | i', j⟩ | ⟨_, _ | i', j⟩ <;>
    simp only [uriAt, withEndpoint, getElem?_modify]
  all_goals
    cases d.endpoints[i']? with
    | none => rfl
    | some e => by_cases hi : i = i' <;> simp [hi, huri, hres, hmeta]

theorem map_uri_modify {α : Type*} (uri : α → Option CString) {f : α → α}
    (hf : ∀ a, uri (f a) = uri a) (as : List α) (j j' : Nat) :
    (as.modify j f)[j']?.map uri = as[j']?.map uri := by
  rw [getElem?_modify]
  cases as[j']? with
  | none => rfl
  | some a => by_cases hj : j = j' <;> simp [hj, hf]

theorem uriAt_withResource {f : IcDeviceResource → IcDeviceResource} (hf : ∀ r, (f r).uri = r.uri)
    (l : Locator) : uriAt (withResource endpoint j f d) l = uriAt d l := by
  cases endpoint with
  | some i =>
    exact uriAt_withEndpoint (f := fun e => { e with resources := e.resources.modify j f })
      (fun _ => rfl) (fun e j' => map_uri_modify _ hf e.resources j j') (fun _ _ => rfl) l
  | none =>
    rcases l with _ | _ | ⟨_, _ | _, j'⟩ | ⟨_, _ | _, _⟩
    case resource.none => exact map_uri_modify _ hf d.resources j j'
    all_goals rfl

theorem uriAt_withMetadata {f : IcDeviceMetadata → IcDeviceMetadata} (hf : ∀ m, (f m).uri = m.uri)
    (l : Locator) : uriAt (withMetadata endpoint j f d) l = uriAt d l := by
  cases endpoint with
  | some i =>
    exact uriAt_withEndpoint (f := fun e => { e with metadata := e.metadata.modify j f })
      (fun _ => rfl) (fun _ _ => rfl) (fun e j' => map_uri_modify _ hf e.metadata j j') l
  | none =>
    rcases l with _ | _ | ⟨_, _ | _, _⟩ | ⟨_, _ | _, j'⟩
    case metadata.none => exact map_uri_modify _ hf d.metadata j j'
    all_goals rfl

/-- Renewing an endpoint drops its resources and brings the new ones. -/
theorem mem_deviceObjects_renewed (hat : d.endpoints[i]? = some old) :
    (u, l) ∈ deviceObjects k (withEndpoint i (renewed e) d) ↔
      ((u, l) ∈ deviceObjects k d ∧
          ¬ ∃ u', (u', l) ∈ resourceObjects k (some i) old.resources) ∨
        (u, l) ∈ resourceObjects k (some i) e.resources := by
  simp only [mem_deviceObjects, mem_resourceObjects]
  by_cases hl : ∃ j, l = .resource k (some i) j
  · obtain ⟨j, rfl⟩ := hl
    -- a resource of the old endpoint is among the dropped ones
    simp only [Locator.entry, uriAt, withEndpoint, getElem?_modify, hat, renewed,
      Locator.resource.injEq, true_and, exists_eq_left', Option.map_eq_map, Option.map_some,
      if_true, bind_some, map_eq_some_iff]
    constructor
    · exact fun hnew => .inr hnew
    · rintro (⟨⟨x, hx, hxu⟩, hnone⟩ | hnew)
      · exact absurd ⟨u, x, hx, hxu⟩ hnone
      · exact hnew
  -- every other locator of the device leads where it led
  · have hother : uriAt (withEndpoint i (renewed e) d) l = uriAt d l ∨ l.entry ≠ k := by
      rcases l with _ | ⟨_, i'⟩ | ⟨k', _ | i', j⟩ | ⟨_, _ | i', j⟩
      case resource.some =>
        by_cases hi : i = i'
        · refine .inr fun hk => hl ⟨j, ?_⟩
          rw [hi, ← hk]
          rfl
        · refine .inl ?_
          simp only [uriAt, withEndpoint, getElem?_modify]
          cases d.endpoints[i']? <;> simp [hi]
      all_goals
        refine .inl ?_
        simp only [uriAt, withEndpoint, getElem?_modify]
      all_goals
        cases d.endpoints[i']? with
        | none => rfl
        | some x => by_cases hi : i = i' <;> simp [hi, renewed]
    have hnot : ∀ rs : List IcDeviceResource, ∀ v : Option CString,
        ¬ ∃ j, l = .resource k (some i) j ∧ rs[j]?.map (·.uri) = some v := by
      intro _ _ hresource
      obtain ⟨j, hj, -⟩ := hresource
      exact hl ⟨j, hj⟩
    simp only [hnot, exists_false, not_false_eq_true, and_true, or_false]
    obtain heq | hne := hother
    · rw [heq]
    · simp [hne]

theorem mem_deviceObjects_withNewMetadata {m : IcDeviceMetadata}
    (hms : metadataOf endpoint d = some ms) :
    (u, l) ∈ deviceObjects k (withNewMetadata endpoint m d) ↔
      (u, l) ∈ deviceObjects k d ∨ (u, l) = (m.uri, .metadata k endpoint ms.length) := by
  have happend : ∀ j, (ms ++ [m])[j]?.map (·.uri) = some u ↔
      ms[j]?.map (·.uri) = some u ∨ (j = ms.length ∧ u = m.uri) := by
    intro j
    -- before the new position, at it, behind it
    rcases Nat.lt_trichotomy j ms.length with hj | rfl | hj
    · simp [getElem?_append_left hj, Nat.ne_of_lt hj]
    · simp [eq_comm]
    · have h₁ : (ms ++ [m])[j]? = none := by simp; omega
      have h₂ : ms[j]? = none := by simp; omega
      simp [h₁, h₂, Nat.ne_of_gt hj]
  simp only [mem_deviceObjects, Prod.mk.injEq]
  cases endpoint with
  | none =>
    obtain rfl : d.metadata = ms := some.inj hms
    rcases l with k' | ⟨k', i'⟩ | ⟨k', _ | i', j⟩ | ⟨k', _ | i', j⟩
    case metadata.none =>
      simp only [uriAt, withNewMetadata, Locator.entry, happend, Locator.metadata.injEq]
      tauto
    all_goals simp [uriAt, withNewMetadata, Locator.entry]
  | some i =>
    obtain ⟨x, hx, rfl⟩ := map_eq_some_iff.mp hms
    rcases l with k' | ⟨k', i'⟩ | ⟨k', _ | i', j⟩ | ⟨k', _ | i', j⟩
    case metadata.some =>
      simp only [uriAt, withNewMetadata, withEndpoint, getElem?_modify, Locator.entry,
        Locator.metadata.injEq, some.injEq]
      by_cases hi : i = i'
      · subst hi
        simp only [hx, Option.map_eq_map, Option.map_some, if_true, Option.bind_some, happend]
        tauto
      · have hi' : ¬ i' = i := fun h => hi h.symm
        cases d.endpoints[i']? <;> simp [hi, hi']
    case metadata.none => simp [uriAt, withNewMetadata, withEndpoint]
    all_goals
      simp only [uriAt, withNewMetadata, withEndpoint, getElem?_modify, Locator.entry,
        reduceCtorEq, and_false, or_false]
    all_goals
      cases d.endpoints[i']? with
      | none => rfl
      | some y => by_cases hi : i = i' <;> simp [hi]

theorem IndexInv.removed (h : IndexInv db) (hentry : hashMapGet db.devices k = some entry)
    (hdevices : db'.devices = (hashMapDelete db.devices k).1) (hindex : db'.resourcesByUri.items =
      db.resourcesByUri.items.filter fun item => item.1 ∉ deviceKeys entry.device) :
    IndexInv db' := by
  have hos : ∀ u l, (u, l) ∈ deviceObjects k entry.device → Holds db u l := fun u l hmem =>
    (holds_iff_mem hentry (mem_deviceObjects.mp hmem).1).mpr hmem
  have hnamed : Named (deviceObjects k entry.device) := fun o ho =>
    isSome_iff_ne_none.mpr (h.named o.1 o.2 (hos o.1 o.2 ho))
  have hlookup : ∀ k', hashMapGet db'.devices k' =
      if k' = k then none else hashMapGet db.devices k' := fun k' => by
    rw [hdevices, hashMapGet_delete]
  refine h.change (fun l => ∃ u, (u, l) ∈ deviceObjects k entry.device) [] (by simp [Named])
    (fun u l => ?_) (fun key l => ?_) fun k' entry' hentry' => ?_
  · simp only [not_mem_nil, or_false]
    by_cases hl : l.entry = k
    · constructor
      · rintro ⟨x, hx, -⟩
        simp [hlookup, hl] at hx
      · rintro ⟨hu, hgone⟩
        exact absurd ⟨u, (holds_iff_mem hentry hl).mp hu⟩ hgone
    · have hnot : ¬ ∃ u, (u, l) ∈ deviceObjects k entry.device := by
        intro hmem
        obtain ⟨u, hu⟩ := hmem
        exact hl (mem_deviceObjects.mp hu).1
      simp [Holds, hlookup, hl, hnot]
  -- removal goes by key, and in a consistent index a key has one owner
  · rw [mem_index_filter hindex]
    simp only [entriesOf, filterMap_nil, not_mem_nil, or_false]
    refine and_congr_right fun hget => not_congr ?_
    exact h.key_mem_iff hos (mem_map_fst_iff (keys_deviceObjects hnamed)) hget
  · rw [hlookup] at hentry'
    split at hentry'
    · cases hentry'
    · exact h.alive _ _ hentry'

theorem replaceEndpointResources_spec {old new : List IcDeviceResource}
    (hok : Indexable (idx.items.filter fun item => item.1 ∉ resourceKeys old)
      (resourceObjects k (some i) new)) (h : replaceEndpointResources idx k i old new = some idx') :
    idx'.items = (idx.items.filter fun item => item.1 ∉ resourceKeys old) ++
      entriesOf (resourceObjects k (some i) new) := by
  rw [← removeResources_items] at hok ⊢
  have hindexes := Indexes.forEach_items (addDeviceResourceURIEntry_indexes k (some i)) new
  -- no insertion fails, so ignoring the results does no harm
  obtain ⟨idx₁, h₁⟩ := hindexes.complete hok.1 hok.2
  cases (Fallible.foldlM_of_forEach h₁).symm.trans h
  exact (hindexes.success h₁).2

theorem IndexInv.renewed (h : IndexInv db) (hat : entry.device.endpoints[i]? = some old)
    (hok : Indexable (db.resourcesByUri.items.filter fun item =>
      item.1 ∉ resourceKeys old.resources) (resourceObjects k (some i) e.resources))
    (hidx : replaceEndpointResources db.resourcesByUri k i old.resources e.resources =
      some db'.resourcesByUri)
    (hupd : Updated db db' k entry (withEndpoint i (renewed e) entry.device)) : IndexInv db' := by
  obtain ⟨_, hrep⟩ := hupd.replaced
  have hos : ∀ u l, (u, l) ∈ resourceObjects k (some i) old.resources → Holds db u l := by
    intro u l hmem
    obtain ⟨j, rfl, hj⟩ := mem_resourceObjects.mp hmem
    exact ⟨entry, hrep.found, by simpa [uriAt, hat] using hj⟩
  refine h.replaced hrep (fun l => ∃ u, (u, l) ∈ resourceObjects k (some i) old.resources)
    (resourceObjects k (some i) e.resources) ?_ hok.1
    (fun u l => mem_deviceObjects_renewed hat) (fun key l => ?_)
  · rintro l ⟨u, hu⟩
    obtain ⟨j, rfl, -⟩ := mem_resourceObjects.mp hu
    rfl
  -- the filter by the keys of the old resources hits their entries only
  · rw [← mem_items_iff, replaceEndpointResources_spec hok hidx, mem_append, mem_filter,
      mem_items_iff]
    refine or_congr_left ?_
    simp only [decide_not, Bool.not_eq_true', decide_eq_false_iff_not]
    exact and_congr_right fun hget => not_congr
      (h.key_mem_iff hos (mem_map_fst_iff (keys_resourceObjects _ _)) hget)

/-- Every call that is not disturbed keeps the index consistent. -/
theorem step_indexInv (db : JsonDatabase) (op : Op) (db' : JsonDatabase) (ok : Bool)
    (h : IndexInv db) (hop : Undisturbed db op) (hstep : step db op = some (db', ok)) :
    IndexInv db' := by
  cases op with
  | addDevice device saved =>
    obtain ⟨-, rfl, -⟩ | ⟨d, uuid, rfl, huuid, ⟨-, hacc, -⟩ | ⟨-, hrej⟩⟩ :=
      jsonDatabaseAddDevice_cases hstep
    · exact h
    · exact h.accepted hacc
    · exact h.rejected hrej (hop d rfl (by simp [huuid]))
  | addEndpoint endpoint saved =>
    obtain ⟨-, rfl, -⟩ | ⟨e, uuid, entry, rfl, huuid, hid, hentry, hcases⟩ :=
      jsonDatabaseAddEndpoint_cases hstep
    · exact h
    have hok := hop e rfl uuid huuid hid entry hentry
    obtain ⟨hnamed, hitems, hrep, -⟩ | ⟨-, -, -, -, hadd⟩ := hcases
    -- the entries of the new objects come behind the others
    · refine h.replaced hrep (fun _ => False) _ (by simp) hnamed (fun u l => ?_) fun key l => ?_
      · simpa using mem_deviceObjects_withNewEndpoint
      · simpa using mem_index_append hitems key l
    · exact absurd hadd hok.not_refused
  | saveEndpoint endpoint saved =>
    obtain ⟨-, rfl⟩ | ⟨e, uri, i, entry, old, rfl, huri, k, hloc, hentry, hat, hcases⟩ :=
      jsonDatabaseSaveEndpoint_cases hstep
    · exact h
    obtain ⟨-, hidx, hupd⟩ | ⟨hver, hidx, hupd⟩ := hcases
    · exact h.updated_same hupd hidx
        (uriAt_withEndpoint (fun _ => rfl) (fun _ _ => rfl) (fun _ _ => rfl))
    -- a new version: the entries of the old resources make room for the new ones
    · have hfound : findEndpoint db uri = some (k, i, old) := by
        simp [findEndpoint, hloc, derefEndpoint, hentry, h.alive k entry hentry, hat]
      exact h.renewed hat (hop e rfl uri huri _ hfound hver) hidx hupd
  | saveResource resource saved =>
    obtain ⟨-, rfl⟩ | ⟨k, endpoint, j, entry, f, hf, hidx, hupd⟩ :=
      jsonDatabaseSaveResource_cases hstep
    · exact h
    · exact h.updated_same hupd hidx (uriAt_withResource hf)
  | updateDateOfLastSyncMillis resource now =>
    obtain ⟨-, rfl⟩ | ⟨k, endpoint, j, entry, f, hf, hidx, hupd⟩ :=
      jsonDatabaseUpdateDateOfLastSyncMillis_cases hstep
    · exact h
    · exact h.updated_same hupd hidx (uriAt_withResource hf)
  | saveMetadata metadata saved =>
    obtain ⟨-, rfl⟩ | ⟨k, endpoint, j, entry, f, hf, hidx, hupd⟩ | ⟨k, entry, hidx, hupd⟩ |
      ⟨m, uri, k, endpoint, entry, ms, -, huri, -, hms, hitems, hupd⟩ :=
      jsonDatabaseSaveMetadata_cases hstep
    · exact h
    · exact h.updated_same hupd hidx (uriAt_withMetadata hf)
    · exact h.updated_same hupd hidx fun _ => rfl
    -- the metadata is new and gets an entry of its own
    · obtain ⟨_, hrep⟩ := hupd.replaced
      refine h.replaced hrep (fun _ => False) [(m.uri, .metadata k endpoint ms.length)]
        (by simp) (by simp [Named, huri]) (fun u l => ?_) fun key l => ?_
      · simpa using mem_deviceObjects_withNewMetadata hms
      · simpa [entriesOf, huri] using mem_index_append hitems key l
  | removeDeviceById uuid deleted =>
    obtain ⟨-, rfl⟩ | ⟨uuid', entry, rfl, -, hentry, hdevices, hindex, -, -⟩ :=
      jsonDatabaseRemoveDeviceById_cases hstep
    · exact h
    · exact h.removed hentry hdevices hindex

/-! ## Every run -/

theorem emptyDatabase_indexInv (saved : Bool) : IndexInv (emptyDatabase saved) where
  named u l := by
    rintro ⟨entry, hentry, -⟩
    simp [emptyDatabase] at hentry
  exact key l := by simp [emptyDatabase, Holds]
  alive k entry hentry := by simp [emptyDatabase] at hentry

def sampleResource : IcDeviceResource where
  id := some "isOn".toList
  uri := some "/light/ep/1/r/isOn".toList
  endpointId := some ['1']
  deviceUuid := some "light".toList
  value := some "false".toList
  type := some "boolean".toList
  mode := resourceModeReadable
  cachingPolicy := .always
  dateOfLastSyncMillis := 0

def sampleEndpoint : IcDeviceEndpoint where
  id := some ['1']
  uri := some "/light/ep/1".toList
  profile := some "light".toList
  profileVersion := 1
  deviceUuid := some "light".toList
  enabled := true
  resources := [sampleResource]
  metadata := []

/-- A light with one endpoint that has one resource. -/
def sampleDevice : IcDevice where
  uuid := some "light".toList
  deviceClass := some "light".toList
  deviceClassVersion := 1
  uri := some "/light".toList
  managingDeviceDriver := some "driver".toList
  endpoints := [sampleEndpoint]
  resources := []
  metadata := []

/-- Metadata of the sample endpoint that is not stored with it. -/
def sampleMetadata : IcDeviceMetadata where
  id := some "label".toList
  uri := some "/light/ep/1/m/label".toList
  endpointId := some ['1']
  deviceUuid := some "light".toList
  value := some "porch".toList

/-- A run through all kinds of calls; the endpoint that is saved comes with a new
profile version and another resource. -/
def sampleRun : List Op :=
  [.addDevice (some { sampleDevice with endpoints := [] }) true,
    .addEndpoint (some sampleEndpoint) false,
    .saveMetadata (some sampleMetadata) true,
    .saveEndpoint (some { sampleEndpoint with
      profileVersion := 2,
      resources := [{ sampleResource with uri := some "/light/ep/1/r/level".toList }] }) true,
    .saveResource (some { sampleResource with uri := some "/light/ep/1/r/level".toList }) false,
    .addDevice (some { sampleDevice with uuid := some "lamp".toList, uri := none }) true]

end ZilkerSdk.Device.Database

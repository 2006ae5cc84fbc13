import ZilkerSdk.Device.Database.Restart

/-!
# Write-back of the device cache

A cache entry whose dirty mark is clear should hold what is stored, because a
shutdown saves only the entries that are marked.  The operations that change a
stored device set the mark, save, and clear it on success; only
`jsonDatabaseAddEndpoint` saves without touching the mark, so a failed save goes
unnoticed.  `WritesBack` is the condition on a call that excludes this, and
excludes objects that a restart could not load.
-/

namespace ZilkerSdk.Device.Database

open Types Lib

variable {db db' : JsonDatabase} {k : Key}

/-! ## Condition on a call -/

/-- The keys of all objects of the database. -/
def liveKeys (db : JsonDatabase) : List Key :=
  db.devices.items.flatMap fun item =>
    (entriesOf (deviceObjects item.1 item.2.device)).map Prod.fst

theorem mem_liveKeys {key : Key} :
    key ∈ liveKeys db ↔ ∃ uri l, Holds db (some uri) l ∧ stringKey uri = key := by
  simp only [liveKeys, List.mem_flatMap, List.mem_map]
  constructor
  · rintro ⟨⟨k, entry⟩, hitem, ⟨key, l⟩, hmem, rfl⟩
    obtain ⟨uri, hmem, hkey⟩ := mem_entriesOf.mp hmem
    have hentry := mem_items_iff.mp hitem
    exact ⟨uri, l, (holds_iff_mem hentry (mem_deviceObjects.mp hmem).1).mpr hmem, hkey⟩
  · rintro ⟨uri, l, ⟨entry, hentry, hu⟩, hkey⟩
    exact ⟨(l.entry, entry), mem_items_iff.mpr hentry, (key, l),
      mem_entriesOf.mpr ⟨uri, mem_deviceObjects.mpr ⟨rfl, hu⟩, hkey⟩, rfl⟩

/-- New resources that can take the place of the resources `old` of the endpoint
at position `i`: they have distinct uris that belong to no other object. -/
def Replaceable (db : JsonDatabase) (k : Key) (i : Nat) (old new : List IcDeviceResource) : Prop :=
  Indexable [] (resourceObjects k (some i) new) ∧
    ∀ key ∈ resourceKeys new, key ∉ liveKeys db ∨ key ∈ resourceKeys old

instance (db : JsonDatabase) (k : Key) (i : Nat) (old new : List IcDeviceResource) :
    Decidable (Replaceable db k i old new) := inferInstanceAs (Decidable (_ ∧ _))

/-- The call leaves nothing that a restart would lose:

* a device with a new uuid has a uuid that can be a storage key, and no uri of an
  object that is there;
* an endpoint to add to a device that is there can be indexed, has no uri of an
  object that is there, and is saved or finds its device already dirty;
* resources that come with a new profile version have uris, which are distinct
  and belong to no other object;
* metadata that is not indexed has no uri of an object that is there;
* a device is removed by a uuid whose length fits. -/
def WritesBack (db : JsonDatabase) : Op → Prop
  | .addDevice device _ => ∀ d ∈ device, ∀ uuid ∈ d.uuid,
      hashMapGet db.devices (stringKey uuid) = none →
      StorageKey uuid ∧ ∀ key ∈ deviceKeys d, key ∉ liveKeys db
  | .addEndpoint endpoint saved => ∀ e ∈ endpoint, ∀ uuid ∈ e.deviceUuid, e.id ≠ none →
      ∀ entry ∈ hashMapGet db.devices (stringKey uuid), (saved = true ∨ entry.dirty = true) ∧
        Indexable db.resourcesByUri.items
          (endpointObjects (stringKey uuid) (e, entry.device.endpoints.length)) ∧
        ∀ key ∈ endpointKeys e, key ∉ liveKeys db
  | .saveEndpoint endpoint _ => ∀ e ∈ endpoint, ∀ uri ∈ e.uri, ∀ t ∈ findEndpoint db uri,
      t.2.2.profileVersion ≠ e.profileVersion →
      Replaceable db t.1 t.2.1 t.2.2.resources e.resources
  | .saveMetadata metadata _ => ∀ m ∈ metadata, ∀ uri ∈ m.uri,
      hashMapGet db.resourcesByUri (stringKey uri) = none → stringKey uri ∉ liveKeys db
  | .removeDeviceById uuid _ => ∀ u ∈ uuid, u.length + 1 < 2 ^ 16
  | _ => True

instance (db : JsonDatabase) : (op : Op) → Decidable (WritesBack db op)
  | .addDevice device _ => inferInstanceAs (Decidable (∀ d ∈ device, _))
  | .addEndpoint endpoint _ | .saveEndpoint endpoint _ =>
    inferInstanceAs (Decidable (∀ e ∈ endpoint, _))
  | .saveMetadata metadata _ => inferInstanceAs (Decidable (∀ m ∈ metadata, _))
  | .removeDeviceById uuid _ => inferInstanceAs (Decidable (∀ u ∈ uuid, _))
  | .saveResource _ _ | .updateDateOfLastSyncMillis _ _ => isTrue trivial

/-! ## Objects come and go -/

/-- Dropping objects and adding named ones with new, distinct keys keeps the
keys of all objects distinct. -/
theorem LiveUris.change (h : LiveUris db) (gone : Locator → Prop) (new : List Object)
    (hnew : Named new) (hdistinct : ((entriesOf new).map Prod.fst).Nodup)
    (hfresh : ∀ key l, (key, l) ∈ entriesOf new → ∀ uri' l', Holds db (some uri') l' →
      ¬ gone l' → stringKey uri' ≠ key)
    (hobjects : ∀ u l, Holds db' u l ↔ (Holds db u l ∧ ¬ gone l) ∨ (u, l) ∈ new) :
    LiveUris db' where
  named u l hu := by
    rcases (hobjects u l).mp hu with ⟨hu, -⟩ | hu
    · exact h.named u l hu
    · exact Option.isSome_iff_ne_none.mp (hnew _ hu)
  distinct uri uri' l l' hu hu' hkey := by
    have hentry : ∀ {uri l}, (some uri, l) ∈ new → (stringKey uri, l) ∈ entriesOf new :=
      fun hmem => mem_entriesOf.mpr ⟨_, hmem, rfl⟩
    -- two old objects, two new ones, or one of each
    rcases (hobjects _ _).mp hu with ⟨hu, hg⟩ | hu
    · rcases (hobjects _ _).mp hu' with ⟨hu', -⟩ | hu'
      · exact h.distinct uri uri' l l' hu hu' hkey
      · exact absurd hkey (hfresh _ _ (hentry hu') uri l hu hg)
    · rcases (hobjects _ _).mp hu' with ⟨hu', hg'⟩ | hu'
      · exact absurd hkey.symm (hfresh _ _ (hentry hu) uri' l' hu' hg')
      · have heq := List.inj_on_of_nodup_map hdistinct (hentry hu) (hentry hu') hkey
        exact (Prod.mk.inj heq).2

/-! ## One call -/

variable {entry : DeviceCacheEntry} {d d' : IcDevice} {uuid : CString}

section

variable (h : WriteBackInv db)
include h

/-- A change of one entry and of its file keeps the invariant if the entry has the uuid and is
dirty or stored, and no other file belongs to it. -/
theorem WriteBackInv.changed (huris : LiveUris db')
    (hother : ∀ k, k ≠ stringKey uuid → hashMapGet db'.devices k = hashMapGet db.devices k)
    (hfiles : ∀ key, key ≠ uuid → hashMapGet db'.storage key = hashMapGet db.storage key)
    (hnew : ∀ entry, hashMapGet db'.devices (stringKey uuid) = some entry →
      entry.destroyedEndpoints = [] ∧ entry.device.uuid = some uuid ∧ StorageKey uuid ∧
        (entry.dirty = false → hashMapGet db'.storage uuid = some (.device entry.device)))
    (howned : hashMapGet db'.storage uuid ≠ none → hashMapGet db'.devices (stringKey uuid) ≠ none)
    (hkeys : ∀ key entry, hashMapGet db.devices (stringKey key) = some entry →
      entry.device.uuid = some key → stringKey key = stringKey uuid → key = uuid) :
    WriteBackInv db' := by
  -- in each part the changed entry and the others are treated apart
  refine ⟨huris, fun k entry hentry => ?_, fun k entry hentry => ?_,
    fun k entry uuid' hentry huuid' hclean => ?_, fun key hne hget => ?_⟩
  · by_cases hk : k = stringKey uuid
    · exact (hnew entry (hk ▸ hentry)).1
    · exact h.alive k entry (hother k hk ▸ hentry)
  · by_cases hk : k = stringKey uuid
    · obtain ⟨-, huuid, hstorage, -⟩ := hnew entry (hk ▸ hentry)
      exact ⟨uuid, huuid, hk.symm, hstorage⟩
    · exact h.keyed k entry (hother k hk ▸ hentry)
  · by_cases hk : k = stringKey uuid
    · obtain ⟨-, huuid, -, hstored⟩ := hnew entry (hk ▸ hentry)
      cases huuid'.symm.trans huuid
      exact hstored hclean
    · rw [hother k hk] at hentry
      obtain ⟨u, hu, hkey, -⟩ := h.keyed k entry hentry
      cases huuid'.symm.trans hu
      rw [hfiles uuid' fun heq => hk (by rw [← hkey, heq])]
      exact h.clean k entry uuid' hentry huuid' hclean
  · by_cases hk : key = uuid
    · subst hk
      obtain ⟨entry, hentry⟩ := Option.ne_none_iff_exists'.mp (howned hget)
      exact ⟨entry, hentry, (hnew entry hentry).2.1⟩
    · obtain ⟨entry, hentry, huuid⟩ := h.owned key hne (hfiles key hk ▸ hget)
      exact ⟨entry, (hother _ fun heq => hk (hkeys key entry hentry huuid heq)).trans hentry, huuid⟩

/-- Replacing a device keeps the invariant if its uuid stays and the new state is
either marked dirty or stored. -/
theorem WriteBackInv.replaced {dirty : Bool}
    (hrep : Replaced db db' k entry d' dirty) (huris : LiveUris db')
    (huuid : d'.uuid = entry.device.uuid)
    (hstored : (dirty = true ∧ db'.storage = db.storage) ∨ ∃ uuid, d'.uuid = some uuid ∧
      db'.storage = storageSave db.storage uuid (.device d')) : WriteBackInv db' := by
  obtain ⟨uuid, huuidOld, rfl, hstorage⟩ := h.keyed k entry hrep.found
  have hnew := hrep.lookup (stringKey uuid)
  rw [if_pos rfl] at hnew
  have huuid' := huuid.trans huuidOld
  have hother : ∀ k, k ≠ stringKey uuid → hashMapGet db'.devices k = hashMapGet db.devices k := by
    intro k hk
    rw [hrep.lookup, if_neg hk]
  refine h.changed huris hother (fun key hne => ?_) (fun entry' hentry' => ?_)
    (fun _ => by rw [hnew]; exact Option.some_ne_none _) fun key entry' hentry' hkey heq => ?_
  · rcases hstored with ⟨-, hst⟩ | ⟨u, hu, hst⟩
    · rw [hst]
    · cases huuid'.symm.trans hu
      rw [hst, hashMapGet_storageSave, if_neg hne]
  · cases hnew.symm.trans hentry'
    refine ⟨h.alive _ entry hrep.found, huuid', hstorage, fun hclean => ?_⟩
    rcases hstored with ⟨hdirty, -⟩ | ⟨u, hu, hst⟩
    · cases hclean.symm.trans hdirty
    · cases huuid'.symm.trans hu
      rw [hst, hashMapGet_storageSave, if_pos rfl]
  · rw [heq, hrep.found] at hentry'
    cases hentry'
    exact Option.some.inj (hkey.symm.trans huuidOld)

theorem WriteBackInv.updated (hupd : Updated db db' k entry d')
    (huuid : d'.uuid = entry.device.uuid) (huris : LiveUris db') : WriteBackInv db' := by
  rcases hupd with ⟨hrep, hst⟩ | ⟨hrep, hst⟩
  · exact h.replaced hrep huris huuid (.inl ⟨rfl, hst⟩)
  · exact h.replaced hrep huris huuid (.inr hst)

theorem WriteBackInv.updated_same (hupd : Updated db db' k entry d')
    (huuid : d'.uuid = entry.device.uuid) (huri : ∀ l, uriAt d' l = uriAt entry.device l) :
    WriteBackInv db' := by
  obtain ⟨_, hrep⟩ := hupd.replaced
  refine h.updated hupd huuid (h.uris.change (fun _ => False) [] (by simp [Named])
    (by simp [entriesOf]) (by simp [entriesOf]) (holds_replaced hrep (by simp) fun u l => ?_))
  simp [mem_deviceObjects, huri]

theorem WriteBackInv.accepted (huuid : d.uuid = some uuid)
    (hacc : Accepted db db' (stringKey uuid) d)
    (hst : db'.storage = storageSave db.storage uuid (.device d)) (hstorage : StorageKey uuid)
    (hfresh : ∀ key ∈ deviceKeys d, key ∉ liveKeys db) : WriteBackInv db' := by
  -- the index has taken all keys of the device, so they are distinct
  have hdistinct : ((entriesOf (deviceObjects (stringKey uuid) d)).map Prod.fst).Nodup := by
    have hnd := db'.resourcesByUri.nodupKeys
    rw [hacc.index, List.map_append] at hnd
    exact (List.nodup_append.mp hnd).2.1
  have huris : LiveUris db' := by
    refine h.uris.change _ _ hacc.named hdistinct ?_ (holds_accepted hacc)
    intro key l hmem uri' l' hholds _ heq
    exact hfresh key (hacc.keys _ hmem) (mem_liveKeys.mpr ⟨uri', l', hholds, heq⟩)
  refine h.changed huris (fun k hk => by rw [hacc.lookup, if_neg hk])
    (fun key hne => by rw [hst, hashMapGet_storageSave, if_neg hne]) (fun entry' hentry' => ?_)
    (fun _ => by rw [hacc.lookup, if_pos rfl]; exact Option.some_ne_none _)
    fun key entry' hentry' _ heq => ?_
  · rw [hacc.lookup, if_pos rfl] at hentry'
    cases hentry'
    exact ⟨rfl, huuid, hstorage, fun _ => by rw [hst, hashMapGet_storageSave, if_pos rfl]⟩
  · rw [heq, hacc.free] at hentry'
    cases hentry'

theorem WriteBackInv.rejected (hrej : Rejected db db' d) :
    WriteBackInv db' := by
  have hget : ∀ k', hashMapGet db'.devices k' = hashMapGet db.devices k' :=
    hashMapGet_congr hrej.devices
  have hholds : ∀ u l, Holds db' u l ↔ Holds db u l := fun u l => by simp [Holds, hget]
  refine ⟨⟨fun u l hu => h.uris.named u l ((hholds u l).mp hu), fun uri uri' l l' hu hu' =>
    h.uris.distinct uri uri' l l' ((hholds _ _).mp hu) ((hholds _ _).mp hu')⟩, ?_, ?_, ?_, ?_⟩
  · intro k' entry' hentry'
    exact h.alive k' entry' (hget k' ▸ hentry')
  · intro k' entry' hentry'
    exact h.keyed k' entry' (hget k' ▸ hentry')
  · intro k' entry' uuid' hentry' huuid' hclean
    rw [hrej.storage]
    exact h.clean k' entry' uuid' (hget k' ▸ hentry') huuid' hclean
  · intro key hne hfile
    rw [hrej.storage] at hfile
    obtain ⟨entry', hentry', huuid'⟩ := h.owned key hne hfile
    exact ⟨entry', (hget _).trans hentry', huuid'⟩

theorem WriteBackInv.removed (hfits : uuid.length + 1 < 2 ^ 16)
    (hdevices : db'.devices = (hashMapDelete db.devices (stringKey uuid)).1)
    (hst : db'.storage = (hashMapDelete db.storage uuid).1) : WriteBackInv db' := by
  have hlookup : ∀ k', hashMapGet db'.devices k' =
      if k' = stringKey uuid then none else hashMapGet db.devices k' := by
    intro k'
    rw [hdevices, hashMapGet_delete]
  have hholds : ∀ {u l}, Holds db' u l → Holds db u l := by
    rintro u l ⟨entry, hentry, hu⟩
    rw [hlookup] at hentry
    split at hentry
    · cases hentry
    · exact ⟨entry, hentry, hu⟩
  have huris : LiveUris db' :=
    ⟨fun u l hu => h.uris.named u l (hholds hu), fun uri uri' l l' hu hu' =>
    h.uris.distinct uri uri' l l' (hholds hu) (hholds hu')⟩
  refine h.changed huris (fun k hk => by rw [hlookup, if_neg hk])
    (fun key hne => by rw [hst, hashMapGet_delete, if_neg hne]) (fun entry' hentry' => ?_)
    (fun hfile => ?_) fun key entry' hentry' huuid' heq => ?_
  · rw [hlookup, if_pos rfl] at hentry'
    cases hentry'
  · rw [hst, hashMapGet_delete, if_pos rfl] at hfile
    exact absurd rfl hfile
  · -- both lengths fit, so another file means another key
    obtain ⟨u, hu, -, hstorage⟩ := h.keyed _ _ hentry'
    cases huuid'.symm.trans hu
    exact stringKey_injective hstorage.1 hfits heq

theorem WriteBackInv.resourceUpdated (hupd : ResourceUpdated db db') :
    WriteBackInv db' := by
  obtain ⟨k, endpoint, j, entry, f, hf, -, hupd⟩ := hupd
  exact h.updated_same hupd (by cases endpoint <;> rfl) (uriAt_withResource hf)

theorem WriteBackInv.renewed {e old : IcDeviceEndpoint} {i : Nat}
    (hat : entry.device.endpoints[i]? = some old)
    (hok : Replaceable db k i old.resources e.resources)
    (hupd : Updated db db' k entry (withEndpoint i (Database.renewed e) entry.device)) :
    WriteBackInv db' := by
  obtain ⟨_, hrep⟩ := hupd.replaced
  refine h.updated hupd rfl (h.uris.change
    (fun l => ∃ u, (u, l) ∈ resourceObjects k (some i) old.resources)
    (resourceObjects k (some i) e.resources) hok.1.1 hok.1.2 ?_
    (holds_replaced hrep ?_ fun u l => mem_deviceObjects_renewed hat))
  · intro key l hmem uri' l' hholds hkept heq
    have hkey : key ∈ resourceKeys e.resources :=
      (mem_map_fst_iff (keys_resourceObjects (some i) e.resources) key).mpr ⟨l, hmem⟩
    rcases hok.2 key hkey with hfresh | hold
    · exact hfresh (mem_liveKeys.mpr ⟨uri', l', hholds, heq⟩)
    · -- the object with this key is one of the old resources, which are gone
      obtain ⟨l₀, hl₀⟩ :=
        (mem_map_fst_iff (keys_resourceObjects (some i) old.resources) key).mp hold
      obtain ⟨uri₀, hmem₀, hkey₀⟩ := mem_entriesOf.mp hl₀
      obtain ⟨j, rfl, hj⟩ := mem_resourceObjects.mp hmem₀
      have hholds₀ : Holds db (some uri₀) (.resource k (some i) j) :=
        ⟨entry, hrep.found, by simpa [uriAt, hat] using hj⟩
      obtain rfl := h.uris.distinct uri' uri₀ l' _ hholds hholds₀ (heq.trans hkey₀.symm)
      exact hkept ⟨_, hmem₀⟩
  · rintro l ⟨u, hu⟩
    obtain ⟨j, rfl, -⟩ := mem_resourceObjects.mp hu
    rfl

/-- An endpoint that has been appended and indexed, and whose save has succeeded or found the
entry dirty. -/
theorem WriteBackInv.endpointAdded {e : IcDeviceEndpoint} {saved : Bool}
    (hentry : hashMapGet db.devices k = some entry)
    (hrep : Replaced db db' k entry (withNewEndpoint e entry.device) entry.dirty)
    (hok : Indexable db.resourcesByUri.items (endpointObjects k (e, entry.device.endpoints.length)))
    (hfresh : ∀ key ∈ endpointKeys e, key ∉ liveKeys db)
    (hsaved : saved = true ∨ entry.dirty = true) (hst : (∃ uuid, entry.device.uuid = some uuid ∧
        db'.storage = storageSave db.storage uuid (.device (withNewEndpoint e entry.device))) ∨
      (db'.storage = db.storage ∧ (saved = false ∨ entry.device.uuid = none))) :
    WriteBackInv db' := by
  have hself := hok.1 (e.uri, .endpoint k entry.device.endpoints.length) List.mem_cons_self
  have hkeys := keys_endpointObjects (k := k) (e := (e, entry.device.endpoints.length))
    (Option.isSome_iff_ne_none.mp hself)
  have hdistinct : ((entriesOf (endpointObjects k
      (e, entry.device.endpoints.length))).map Prod.fst).Nodup := by
    have hnd := hok.2
    rw [List.map_append] at hnd
    exact (List.nodup_append.mp hnd).2.1
  have huris : LiveUris db' := by
    refine h.uris.change (fun _ => False) _ hok.1 hdistinct ?_
      (holds_replaced hrep (by simp) fun u l => by simpa using mem_deviceObjects_withNewEndpoint)
    intro key l hmem uri' l' hholds _ heq
    exact hfresh key ((mem_map_fst_iff hkeys key).mpr ⟨l, hmem⟩)
      (mem_liveKeys.mpr ⟨uri', l', hholds, heq⟩)
  refine h.replaced hrep huris rfl ?_
  rcases hst with ⟨uuid, huuid, hst⟩ | ⟨hst, hwhy⟩
  · exact .inr ⟨uuid, huuid, hst⟩
  · -- the save has failed, so the entry was dirty before
    obtain ⟨u, hu, -⟩ := h.keyed _ _ hentry
    rcases hwhy with hfailed | hnull
    · exact .inl ⟨hsaved.resolve_left (by simp [hfailed]), hst⟩
    · exact absurd (hnull.symm.trans hu) (by simp)

end

/-- Every call that leaves nothing to be lost keeps the write-back invariant. -/
theorem step_writeBackInv (db : JsonDatabase) (op : Op) (db' : JsonDatabase) (ok : Bool)
    (h : WriteBackInv db) (hop : WritesBack db op) (hstep : step db op = some (db', ok)) :
    WriteBackInv db' := by
  cases op with
  | addDevice device saved =>
    rcases jsonDatabaseAddDevice_cases hstep with
      ⟨-, rfl, -⟩ | ⟨d, uuid, rfl, huuid, ⟨-, hacc, hst⟩ | ⟨-, hrej⟩⟩
    · exact h
    · obtain ⟨hstorage, hfresh⟩ := hop d rfl uuid huuid hacc.free
      exact h.accepted huuid hacc hst hstorage hfresh
    · exact h.rejected hrej
  | addEndpoint endpoint saved =>
    rcases jsonDatabaseAddEndpoint_cases hstep with
      ⟨-, rfl, -⟩ | ⟨e, uuid, entry, rfl, huuid, hid, hentry, hcases⟩
    · exact h
    obtain ⟨hsaved, hok, hfresh⟩ := hop e rfl uuid huuid hid entry hentry
    rcases hcases with ⟨-, -, hrep, ⟨-, hst⟩ | ⟨-, hst⟩⟩ | ⟨-, -, -, -, hadd⟩
    · exact h.endpointAdded hentry hrep hok hfresh hsaved (.inl hst)
    · exact h.endpointAdded hentry hrep hok hfresh hsaved (.inr hst)
    · exact absurd hadd hok.not_refused
  | saveEndpoint endpoint saved =>
    rcases jsonDatabaseSaveEndpoint_cases hstep with
      ⟨-, rfl⟩ | ⟨e, uri, i, entry, old, rfl, huri, k, hloc, hentry, hat, hcases⟩
    · exact h
    rcases hcases with ⟨-, -, hupd⟩ | ⟨hver, -, hupd⟩
    · exact h.updated_same hupd rfl
        (uriAt_withEndpoint (fun _ => rfl) (fun _ _ => rfl) (fun _ _ => rfl))
    · have hfound : findEndpoint db uri = some (k, i, old) := by
        simp [findEndpoint, hloc, derefEndpoint, hentry, h.alive k entry hentry, hat]
      exact h.renewed hat (hop e rfl uri huri _ hfound hver) hupd
  | saveResource resource saved =>
    rcases jsonDatabaseSaveResource_cases hstep with ⟨-, rfl⟩ | hupd
    · exact h
    · exact h.resourceUpdated hupd
  | updateDateOfLastSyncMillis resource now =>
    rcases jsonDatabaseUpdateDateOfLastSyncMillis_cases hstep with ⟨-, rfl⟩ | hupd
    · exact h
    · exact h.resourceUpdated hupd
  | saveMetadata metadata saved =>
    rcases jsonDatabaseSaveMetadata_cases hstep with
      ⟨-, rfl⟩ | ⟨k, endpoint, j, entry, f, hf, -, hupd⟩ | ⟨k, entry, -, hupd⟩ |
      ⟨m, uri, k, endpoint, entry, ms, rfl, huri, hfree, hms, -, hupd⟩
    · exact h
    · exact h.updated_same hupd (by cases endpoint <;> rfl) (uriAt_withMetadata hf)
    · exact h.updated_same hupd rfl fun _ => rfl
    -- new metadata: its address is that of no other object
    · have hfresh := hop m rfl uri huri hfree
      obtain ⟨_, hrep⟩ := hupd.replaced
      refine h.updated hupd (by cases endpoint <;> rfl) (h.uris.change (fun _ => False)
        [(m.uri, .metadata k endpoint ms.length)] (by simp [Named, huri])
        (by simp [entriesOf, huri]) ?_ (holds_replaced hrep (by simp) fun u l => ?_))
      · intro key l hmem uri' l' hholds _ heq
        obtain ⟨rfl, -⟩ : key = stringKey uri ∧ l = .metadata k endpoint ms.length := by
          simpa [entriesOf, huri] using hmem
        exact hfresh (mem_liveKeys.mpr ⟨uri', l', hholds, heq⟩)
      · simpa using mem_deviceObjects_withNewMetadata hms
  | removeDeviceById uuid deleted =>
    rcases jsonDatabaseRemoveDeviceById_cases hstep with
      ⟨-, rfl⟩ | ⟨uuid', entry, rfl, -, -, hdevices, -, hst, -⟩
    · exact h
    · exact h.removed (hop uuid' rfl) hdevices hst

/-! ## Every run -/

theorem emptyDatabase_writeBackInv (saved : Bool) : WriteBackInv (emptyDatabase saved) where
  uris :=
    { named := fun u l ⟨entry, hentry, _⟩ => by simp [emptyDatabase] at hentry
      distinct := fun uri uri' l l' ⟨entry, hentry, _⟩ => by simp [emptyDatabase] at hentry }
  alive k entry hentry := by simp [emptyDatabase] at hentry
  keyed k entry hentry := by simp [emptyDatabase] at hentry
  clean k entry uuid hentry := by simp [emptyDatabase] at hentry
  owned key hne hfile := by
    cases saved with
    | false => exact absurd rfl hfile
    | true =>
      simp only [emptyDatabase, if_true] at hfile
      rw [hashMapGet_storageSave, if_neg hne] at hfile
      exact absurd rfl hfile

/-- Every device whose entry is not dirty is what is stored under its uuid. -/
def CleanEntriesStored (db : JsonDatabase) : Prop :=
  ∀ k entry, hashMapGet db.devices k = some entry → entry.dirty = false →
    ∃ uuid, entry.device.uuid = some uuid ∧
      hashMapGet db.storage uuid = some (.device entry.device)

/-- A run with failing saves: an endpoint is added while its device is dirty from
a save that failed, and a device is added twice. -/
def failingSaves : List Op :=
  [.addDevice (some sampleDevice) true,
    .saveResource (some sampleResource) false,
    .addEndpoint (some { sampleEndpoint with
      id := some ['2'], uri := some "/light/ep/2".toList, resources := [] }) false,
    .saveMetadata (some sampleMetadata) false,
    .addDevice (some sampleDevice) true]

end ZilkerSdk.Device.Database

import ZilkerSdk.Device.PatternWrite.Model

/-!
# Which resources a pattern write reaches

A pattern write should pass the value to the driver of every resource that the pattern
matches.  Three things keep it from that.  A resource that may not be written, or whose
driver is not loaded, is refused.  The first write that fails or is refused is the last.  And
nothing is escaped or anchored in the regular expression, so what it finds need not be what
the pattern matches: for a pattern of ordinary characters it is what the pattern matches with
a further `*` at either end.
-/

namespace ZilkerSdk.Device.PatternWrite

open Types Lib Device.Database List Option

variable (service : DeviceService) (answers : WriteCall → Bool)

/-! ## What a write should do -/

/-- A stored resource and the device it belongs to. -/
def Stored (db : JsonDatabase) (device : IcDevice) (resource : IcDeviceResource) : Prop :=
  ∃ k entry endpoint j, hashMapGet db.devices k = some entry ∧ entry.device = device ∧
    derefResource db k endpoint j = some resource

/-- The call passes the value to the driver of the device that owns the resource, and the
resource may be written. -/
structure Intended (value : Option CString) (call : WriteCall) (device : IcDevice) : Prop where
  stored : Stored service.db device call.resource
  writeable : call.resource.mode &&& resourceModeWriteable ≠ 0
  driver : deviceDriverManagerGetDeviceDriver service device.managingDeviceDriver =
    some (some call.driver)
  previousValue : call.previousValue = call.resource.value
  newValue : call.newValue = value

/-- The pattern as a glob: `*` stands for any string, every other character for itself. -/
def glob (pattern : CString) : List (Glob.Piece Char) :=
  pattern.map fun c => if c = '*' then .gap else .one c

/-- The resource has a uri, and the pattern matches all of it. -/
def MatchesGlob (pattern : CString) (resource : IcDeviceResource) : Prop :=
  ∃ uri, resource.uri = some uri ∧ Glob.Matches (glob pattern) uri

/-- The regular expression is accepted and found in the text. -/
def finds (regcomp : Regcomp) (uriRegex text : CString) : Bool :=
  match regcomp uriRegex with
  | some found => found text
  | none => false

/-- The regular expression is found in those stored uris that the pattern matches. -/
def SearchesWholeUris (regcomp : Regcomp) (db : JsonDatabase) (pattern : CString) : Prop :=
  ∀ device resource uri, Stored db device resource → resource.uri = some uri →
    (finds regcomp (createRegexFromPattern pattern) uri = true ↔
      Glob.Matches (glob pattern) uri)

/-- No write to a matching resource among these entries of the index fails. -/
def Unfailing (pattern : CString) (value : Option CString) (entries : List (Key × Locator)) :
    Prop :=
  ∀ item ∈ entries, ∀ resource, resourceAt service.db item.2 = some (some resource) →
    MatchesGlob pattern resource →
    ∃ call device, call.resource = resource ∧ Intended service value call device ∧
      answers call = true

/-- The calls of a pattern write: intended ones for matching resources only, one at most for
each, and one for each that comes before any failure. -/
structure Delivers (walk : List (Key × Locator)) (pattern : CString) (value : Option CString)
    (calls : List WriteCall) : Prop where
  only : ∀ call ∈ calls, MatchesGlob pattern call.resource ∧
    ∃ device, Intended service value call device
  once : (calls.map fun call => call.resource.uri).Nodup
  each : ∀ before key l after call device, walk = before ++ (key, l) :: after →
    resourceAt service.db l = some (some call.resource) → MatchesGlob pattern call.resource →
    Intended service value call device → Unfailing service answers pattern value before →
    call ∈ calls

/-- What the code takes for granted of the database: the index is right, the 16-bit counts
and key lengths do not overflow, and every device names its driver. -/
structure WellFormed (db : JsonDatabase) : Prop where
  consistent : IndexConsistent db
  alive : NoneDestroyed db
  counted : db.resourcesByUri.items.length < 2 ^ 16
  uris : ∀ uri l, Holds db (some uri) l → uri.length + 1 < 2 ^ 16 ∧ '\x00' ∉ uri
  drivers : ∀ k entry, hashMapGet db.devices k = some entry →
    entry.device.managingDeviceDriver ≠ none

/-! ## Stored resources and the index -/

section Index

theorem keyString_stringKey {uri : CString} (hlength : uri.length + 1 < 2 ^ 16)
    (hend : '\x00' ∉ uri) : keyString (stringKey uri) = some uri := by
  have hkey : stringKey uri = uri ++ ['\x00'] := by
    rw [stringKey, Nat.mod_eq_of_lt hlength, take_of_length_le (by simp)]
  have huri : ∀ c ∈ uri, decide (c ≠ '\x00') = true := by
    intro c hc
    have hne : c ≠ '\x00' := fun heq => hend (heq ▸ hc)
    simpa using hne
  rw [keyString, hkey, if_pos (by simp), takeWhile_append_of_pos huri]
  simp

variable {db : JsonDatabase} {k : Key} {entry : DeviceCacheEntry} {endpoint : Option Nat} {j : Nat}
  {resource : IcDeviceResource}

theorem holds_of_deref (hentry : hashMapGet db.devices k = some entry)
    (hderef : derefResource db k endpoint j = some resource) :
    Holds db resource.uri (.resource k endpoint j) := by
  refine ⟨entry, hentry, ?_⟩
  cases endpoint with
  | none =>
    have hget : entry.device.resources[j]? = some resource := by
      simpa [derefResource, hentry] using hderef
    simp [uriAt, hget]
  | some i =>
    obtain ⟨e, he, hget⟩ := bind_eq_some_iff.mp hderef
    have hendpoint : entry.device.endpoints[i]? = some e := by
      simp only [derefEndpoint, hentry, bind_eq_bind, bind_some] at he
      split at he
      · cases he
      · exact he
    simp [uriAt, hendpoint, hget]

theorem deref_of_holds (halive : NoneDestroyed db) {uri : Option CString}
    (hholds : Holds db uri (.resource k endpoint j)) :
    ∃ entry resource, hashMapGet db.devices k = some entry ∧
      derefResource db k endpoint j = some resource ∧ resource.uri = uri := by
  obtain ⟨entry, hentry, huri⟩ := hholds
  replace hentry : hashMapGet db.devices k = some entry := hentry
  have hdestroyed := halive k entry hentry
  cases endpoint with
  | none =>
    obtain ⟨resource, hget, hresource⟩ := map_eq_some_iff.mp huri
    exact ⟨entry, resource, hentry, by simp [derefResource, hentry, hget], hresource⟩
  | some i =>
    obtain ⟨e, he, hmap⟩ := bind_eq_some_iff.mp huri
    obtain ⟨resource, hget, hresource⟩ := map_eq_some_iff.mp hmap
    refine ⟨entry, resource, hentry, ?_, hresource⟩
    simp [derefResource, derefEndpoint, hentry, hdestroyed, he, hget]

theorem Stored.indexed (hwf : WellFormed db) {device : IcDevice} (h : Stored db device resource) :
    ∃ uri l entry, resource.uri = some uri ∧
      hashMapGet db.resourcesByUri (stringKey uri) = some l ∧
      resourceAt db l = some (some resource) ∧
      hashMapGet db.devices l.entry = some entry ∧ entry.device = device := by
  obtain ⟨k, entry, endpoint, j, hentry, hdevice, hderef⟩ := h
  have hholds := holds_of_deref hentry hderef
  obtain ⟨uri, huri⟩ := ne_none_iff_exists'.mp (hwf.consistent.named _ _ hholds)
  rw [huri] at hholds
  exact ⟨uri, .resource k endpoint j, entry, huri, hwf.consistent.indexed uri _ hholds,
    congrArg some hderef, hentry, hdevice⟩

theorem stored_of_index (hwf : WellFormed db) {key : Key} {l : Locator}
    {item : Option IcDeviceResource} (hget : hashMapGet db.resourcesByUri key = some l)
    (hitem : resourceAt db l = some item) :
    ∃ device resource uri, item = some resource ∧ Stored db device resource ∧
      resource.uri = some uri ∧ key = stringKey uri ∧ keyString key = some uri := by
  obtain ⟨uri, hholds, hkey⟩ := hwf.consistent.sound key l hget
  cases l with
  | resource k endpoint j =>
    obtain ⟨entry, resource, hentry, hderef, huri⟩ := deref_of_holds hwf.alive hholds
    obtain rfl : derefResource db k endpoint j = item := some.inj hitem
    refine ⟨entry.device, resource, uri, hderef, ⟨k, entry, endpoint, j, hentry, rfl, hderef⟩,
      huri, hkey.symm, ?_⟩
    -- the key ends in the NUL that `keyString` looks for
    obtain ⟨hlength, hend⟩ := hwf.uris uri _ hholds
    rw [← hkey, keyString_stringKey hlength hend]
  | _ => cases hitem

end Index

/-! ## Writes to stored resources -/

/-- The call that the write to a stored resource should make, if it may make one. -/
def intendedCall (value : Option CString) (resource : IcDeviceResource) : Option WriteCall := do
  let uri ← resource.uri
  let l ← hashMapGet service.db.resourcesByUri (stringKey uri)
  let entry ← hashMapGet service.db.devices l.entry
  if resource.mode &&& resourceModeWriteable = 0 then none
  else
    let driver ←
      (deviceDriverManagerGetDeviceDriver service entry.device.managingDeviceDriver).join
    some ⟨driver, resource, resource.value, value⟩

variable {service} {value : Option CString} {resource : IcDeviceResource} {call : WriteCall}
  {device : IcDevice} {regcomp : Regcomp} {pattern : CString}

theorem intendedCall_resource (h : intendedCall service value resource = some call) :
    call.resource = resource := by
  simp only [intendedCall, bind_eq_bind, bind_eq_some_iff] at h
  obtain ⟨_, -, _, -, _, -, hcall⟩ := h
  split at hcall
  · cases hcall
  · obtain ⟨_, -, hcall⟩ := bind_eq_some_iff.mp hcall
    rw [← some.inj hcall]

theorem intendedCall_eq_some_iff (hwf : WellFormed service.db)
    (hstored : Stored service.db device resource) :
    intendedCall service value resource = some call ↔
      call.resource = resource ∧ Intended service value call device := by
  obtain ⟨uri, l, entry, huri, hget, -, hentry, rfl⟩ := hstored.indexed hwf
  simp only [intendedCall, huri, hget, hentry, bind_eq_bind, bind_some]
  constructor
  · intro h
    split at h
    · cases h
    · obtain ⟨driver, hdriver, ⟨⟩⟩ := bind_eq_some_iff.mp h
      exact ⟨rfl, hstored, ‹_›, join_eq_some_iff.mp hdriver, rfl, rfl⟩
  · intro h
    obtain ⟨driver, _, previousValue, newValue⟩ := call
    obtain ⟨rfl, -, hmode, hdriver, hprevious, hnew⟩ := h
    simp only at hmode hdriver hprevious hnew
    simp [hmode, hdriver, hprevious, hnew]

/-- A write by uri to a stored resource attempts the intended call. -/
theorem writes_stored (hwf : WellFormed service.db) (value : Option CString)
    (hstored : Stored service.db device resource) :
    deviceServiceWriteResourceNoPattern service answers resource.uri value =
      Fallible.attempt (intendedCall service value) answers resource := by
  obtain ⟨uri, l, entry, huri, hget, hat, hentry, rfl⟩ := hstored.indexed hwf
  have hfind : findResource service (some uri) = some (some resource) := by
    cases l with
    | resource k endpoint j =>
      have hderef : derefResource service.db k endpoint j = some resource := some.inj hat
      simp [findResource, jsonDatabaseGetResourceByUri, answer, hget, hderef]
    | _ => cases hat
  have hdevice : deviceServiceGetDeviceByUri service.db (some uri) = some (some entry.device) := by
    simp [deviceServiceGetDeviceByUri, answer, hget, hentry, cloneDevice, hwf.alive _ _ hentry]
  -- the driver is looked up under a name
  obtain ⟨found, hdriver⟩ : ∃ found,
      deviceDriverManagerGetDeviceDriver service entry.device.managingDeviceDriver =
        some found := by
    obtain ⟨name, hname⟩ := ne_none_iff_exists'.mp (hwf.drivers _ _ hentry)
    rw [deviceDriverManagerGetDeviceDriver, hname]
    cases service.deviceDrivers <;> exact ⟨_, rfl⟩
  funext calls
  simp only [deviceServiceWriteResourceNoPattern, huri, hfind, Fallible.attempt, intendedCall,
    hget, hentry, getDeviceDriverForUri, hdevice, hdriver, bind_eq_bind, bind_some]
  -- refused by the mode, refused for want of a driver, or passed on
  by_cases hmode : resource.mode &&& resourceModeWriteable = 0
  · simp [hmode]
  · cases found <;> simp [hmode]

/-! ## The resources a search finds -/

section Search

variable {db : JsonDatabase} {walk : List (Key × Locator)}

/-- The resource an entry of the index contributes to a search. -/
def pick (db : JsonDatabase) (found : CString → Bool) (item : Key × Locator) :
    Option IcDeviceResource :=
  match resourceAt db item.2, keyString item.1 with
  | some (some resource), some uri => if found uri then some resource else none
  | _, _ => none

theorem pick_eq_some (hwf : WellFormed db) {found : CString → Bool} {key : Key} {l : Locator}
    (hget : hashMapGet db.resourcesByUri key = some l) {resource : IcDeviceResource} :
    pick db found (key, l) = some resource ↔
      resourceAt db l = some (some resource) ∧
        ∃ device uri, Stored db device resource ∧ resource.uri = some uri ∧ key = stringKey uri ∧
          found uri = true := by
  cases hitem : resourceAt db l with
  | none => simp [pick, hitem]
  | some item =>
    obtain ⟨device, resource', uri, rfl, hstored, huri, hkey, hread⟩ :=
      stored_of_index hwf hget hitem
    simp only [pick, hitem, hread, some.injEq]
    constructor
    · intro h
      split at h
      · cases h
        exact ⟨rfl, device, uri, hstored, huri, hkey, ‹_›⟩
      · cases h
    · intro ⟨hsame, _, uri', _, huri', _, hfound⟩
      subst hsame
      cases huri.symm.trans huri'
      simp [hfound]

variable (hwf : WellFormed db)
  (hwalk : ∀ item ∈ walk, hashMapGet db.resourcesByUri item.1 = some item.2)
include hwf hwalk

theorem collectItems_eq (found : CString → Bool) :
    collectItems found (resourceAt db) walk = some (walk.filterMap (pick db found)) := by
  induction walk with
  | nil => rfl
  | cons head rest ih =>
    obtain ⟨key, l⟩ := head
    have hrest := ih fun item hitem => hwalk item (mem_cons_of_mem _ hitem)
    have hget := hwalk _ mem_cons_self
    rw [collectItems, filterMap_cons]
    -- skipped by type, skipped by uri, or collected
    cases hitem : resourceAt db l with
    | none => simpa [pick, hitem] using hrest
    | some item =>
      obtain ⟨_, resource, uri, rfl, -, -, -, hread⟩ := stored_of_index hwf hget hitem
      cases hfound : found uri with
      | false => simpa [pick, hitem, hread, hfound] using hrest
      | true => simp [pick, hitem, hread, hfound, hrest]

theorem jsonDatabaseGetResourcesByUriRegex_eq (regcomp : Regcomp) (uriRegex : CString) :
    jsonDatabaseGetResourcesByUriRegex regcomp db walk uriRegex =
      some (walk.filterMap (pick db (finds regcomp uriRegex))) := by
  rw [jsonDatabaseGetResourcesByUriRegex, getItemsByUriRegex]
  cases hcompiled : regcomp uriRegex with
  | some found =>
    have hfinds : finds regcomp uriRegex = found := by
      funext text
      rw [finds, hcompiled]
    rw [hfinds]
    exact collectItems_eq hwf hwalk found
  | none =>
    -- a refused expression is found nowhere
    have hnone : ∀ item, pick db (finds regcomp uriRegex) item = none := by
      intro item
      unfold pick
      split
      · simp [finds, hcompiled]
      · rfl
    rw [filterMap_eq_nil_iff.mpr fun item _ => hnone item]

/-- No two resources of a search have the same uri: it is the key they were found under. -/
theorem nodup_uris_found (found : CString → Bool) (hkeys : (walk.map Prod.fst).Nodup) :
    ((walk.filterMap (pick db found)).map IcDeviceResource.uri).Nodup := by
  rw [List.Nodup, pairwise_map, pairwise_filterMap]
  refine (pairwise_map.mp hkeys).imp_of_mem ?_
  intro item item' hitem hitem' hne resource hpick resource' hpick' hsame
  obtain ⟨-, _, uri, -, huri, hkey, -⟩ := (pick_eq_some hwf (hwalk item hitem)).mp hpick
  obtain ⟨-, _, uri', -, huri', hkey', -⟩ := (pick_eq_some hwf (hwalk item' hitem')).mp hpick'
  have heq : uri = uri' := some.inj (huri.symm.trans (hsame.trans huri'))
  exact hne (hkey.trans (heq ▸ hkey'.symm))

end Search

/-! ## Pattern writes -/

section PatternWrites

variable {regcomp : Regcomp} {walk : List (Key × Locator)} {pattern : CString}
  {resource : IcDeviceResource}

/-- A resource that the search contributes is one that the pattern matches. -/
theorem pick_iff_matches (hwf : WellFormed service.db)
    (hsearch : SearchesWholeUris regcomp service.db pattern) {key : Key} {l : Locator}
    (hget : hashMapGet service.db.resourcesByUri key = some l) :
    pick service.db (finds regcomp (createRegexFromPattern pattern)) (key, l) = some resource ↔
      resourceAt service.db l = some (some resource) ∧ MatchesGlob pattern resource := by
  rw [pick_eq_some hwf hget]
  constructor
  · intro ⟨hat, device, uri, hstored, huri, _, hfinds⟩
    exact ⟨hat, uri, huri, (hsearch device resource uri hstored huri).mp hfinds⟩
  -- the index knows the resource by the uri that the pattern matches
  · intro ⟨hat, uri, huri, hmatches⟩
    obtain ⟨device, _, _, hsome, hstored, huri', hkey, -⟩ := stored_of_index hwf hget hat
    cases hsome
    cases huri.symm.trans huri'
    exact ⟨hat, device, uri, hstored, huri, hkey,
      (hsearch device resource uri hstored huri).mpr hmatches⟩

theorem writeResources_eq (hwf : WellFormed service.db) (value : Option CString)
    {resources : List IcDeviceResource}
    (hstored : ∀ resource ∈ resources, ∃ device, Stored service.db device resource)
    (hlength : resources.length < 2 ^ 16) (hne : resources ≠ []) :
    writeResources service answers value resources =
      Fallible.forEach (Fallible.attempt (intendedCall service value) answers) resources := by
  have hcount : resources.length % 2 ^ 16 ≠ 0 := by
    rw [Nat.mod_eq_of_lt hlength]
    exact fun h => hne (length_eq_zero_iff.mp h)
  rw [writeResources, if_neg hcount]
  apply Fallible.forEach_congr
  intro resource hresource
  obtain ⟨device, hdevice⟩ := hstored resource hresource
  exact writes_stored answers hwf value hdevice

/-- The resources a pattern finds, in the order in which they are written. -/
def foundResources (regcomp : Regcomp) (db : JsonDatabase) (walk : List (Key × Locator))
    (pattern : CString) : List IcDeviceResource :=
  walk.filterMap (pick db (finds regcomp (createRegexFromPattern pattern)))

section

variable (hwf : WellFormed service.db)
  (hget : ∀ item ∈ walk, hashMapGet service.db.resourcesByUri item.1 = some item.2)
include hwf hget

theorem stored_of_found (hresource : resource ∈ foundResources regcomp service.db walk pattern) :
    ∃ device, Stored service.db device resource := by
  obtain ⟨item, hitem, hpick⟩ := mem_filterMap.mp hresource
  obtain ⟨-, device, _, hstored, -⟩ := (pick_eq_some hwf (hget item hitem)).mp hpick
  exact ⟨device, hstored⟩

theorem delivers_of_attempts (hkeys : (walk.map Prod.fst).Nodup)
    (hsearch : SearchesWholeUris regcomp service.db pattern) {value : Option CString}
    {calls : List WriteCall}
    (hsub : calls.Sublist
      ((foundResources regcomp service.db walk pattern).filterMap (intendedCall service value)))
    (hmade : ∀ before resource after call,
      foundResources regcomp service.db walk pattern = before ++ resource :: after →
      (∀ earlier ∈ before, ∃ call', intendedCall service value earlier = some call' ∧
        answers call' = true) →
      intendedCall service value resource = some call → call ∈ calls) :
    Delivers service answers walk pattern value calls where
  only := by
    intro call hcall
    obtain ⟨resource, hresource, hevent⟩ := mem_filterMap.mp (hsub.subset hcall)
    obtain ⟨device, hstored⟩ := stored_of_found hwf hget hresource
    obtain ⟨rfl, hintended⟩ := (intendedCall_eq_some_iff hwf hstored).mp hevent
    obtain ⟨item, hitem, hpick⟩ := mem_filterMap.mp hresource
    have hmatches := (pick_iff_matches hwf hsearch (hget item hitem)).mp hpick
    exact ⟨hmatches.2, device, hintended⟩
  once := by
    have huris := nodup_uris_found hwf hget (finds regcomp (createRegexFromPattern pattern)) hkeys
    -- every call is about the resource it was made for
    have hmap : (((foundResources regcomp service.db walk pattern).filterMap
        (intendedCall service value)).map fun call => call.resource.uri).Sublist
        ((foundResources regcomp service.db walk pattern).map IcDeviceResource.uri) :=
      sublist_map_filterMap _ fun _ _ hcall =>
        congrArg IcDeviceResource.uri (intendedCall_resource hcall)
    exact huris.sublist ((hsub.map _).trans hmap)
  each := by
    intro before key l after call device hsplit hat hmatches hintended hbefore
    have hpick := (pick_iff_matches hwf hsearch
      (hget (key, l) (by rw [hsplit]; simp))).mpr ⟨hat, hmatches⟩
    -- the walk up to the entry gives the resources up to its resource
    have hresources : foundResources regcomp service.db walk pattern =
        foundResources regcomp service.db before pattern ++
          call.resource :: foundResources regcomp service.db after pattern := by
      simp only [foundResources, hsplit, filterMap_append, filterMap_cons, hpick]
    apply hmade _ _ _ _ hresources
    · intro earlier hearlier
      obtain ⟨item, hitem, hpick'⟩ := mem_filterMap.mp hearlier
      have hitem' := hget item (by rw [hsplit]; simp [hitem])
      obtain ⟨hat', hmatches'⟩ := (pick_iff_matches hwf hsearch hitem').mp hpick'
      obtain ⟨call', device', rfl, hintended', hanswer⟩ := hbefore item hitem earlier hat' hmatches'
      exact ⟨call', (intendedCall_eq_some_iff hwf hintended'.stored).mpr ⟨rfl, hintended'⟩, hanswer⟩
    · exact (intendedCall_eq_some_iff hwf hintended.stored).mpr ⟨rfl, hintended⟩

end

/-- Where the search finds what the pattern matches, a pattern write returns, and its calls
are intended ones for matching resources, in the order of the index up to the first failure. -/
theorem pattern_write_passes (hwf : WellFormed service.db)
    (hwalk : walk.Perm service.db.resourcesByUri.items) (hpattern : '*' ∈ pattern)
    (hsearch : SearchesWholeUris regcomp service.db pattern) (value : Option CString) :
    ∃ calls result,
      deviceServiceWriteResource service answers regcomp walk (some pattern) value =
        some (calls, result) ∧
      Delivers service answers walk pattern value calls := by
  have hget : ∀ item ∈ walk, hashMapGet service.db.resourcesByUri item.1 = some item.2 :=
    fun item hitem => mem_items_iff.mp (hwalk.mem_iff.mp hitem)
  have hkeys : (walk.map Prod.fst).Nodup :=
    (hwalk.map Prod.fst).nodup_iff.mpr service.db.resourcesByUri.nodupKeys
  have hlength : (foundResources regcomp service.db walk pattern).length < 2 ^ 16 := by
    refine Nat.lt_of_le_of_lt (length_filterMap_le _ _) ?_
    rw [hwalk.length_eq]
    exact hwf.counted
  obtain ⟨calls, ok, hrun, hsub, hmade⟩ := Fallible.forEach_attempt (intendedCall service value)
    answers (foundResources regcomp service.db walk pattern) []
  -- only the result of a search without hits differs from that of the loop
  have hwrite : ∃ result, writeResources service answers value
      (foundResources regcomp service.db walk pattern) [] = some (calls, result) := by
    by_cases hne : foundResources regcomp service.db walk pattern = []
    · rw [hne, filterMap_nil, sublist_nil] at hsub
      rw [hne, hsub]
      exact ⟨false, rfl⟩
    · rw [writeResources_eq answers hwf value (fun _ => stored_of_found hwf hget) hlength hne, hrun]
      exact ⟨ok, rfl⟩
  obtain ⟨result, hresult⟩ := hwrite
  refine ⟨calls, result, ?_, delivers_of_attempts answers hwf hget hkeys hsearch hsub hmade⟩
  rw [deviceServiceWriteResource, isUriPattern, if_pos (by simpa using hpattern),
    jsonDatabaseGetResourcesByUriRegex_eq hwf hget]
  exact hresult

end PatternWrites

/-! ## Ordinary patterns -/

/-- A character that stands for itself in a basic regular expression, wherever it is. -/
def isOrdinary (c : Char) : Bool := c ∉ ['.', '[', '\\', '*', '^', '$']

/-- The regular expression of ordinary characters and `.*`. -/
def regexText (pieces : List (Glob.Piece Char)) : CString :=
  pieces.flatMap fun
    | .one c => [c]
    | .gap => ['.', '*']

/-- What POSIX says of expressions that consist of ordinary characters and `.*`: they are
accepted, and found in a text if they match some part of it. -/
def PosixBasic (regcomp : Regcomp) : Prop :=
  ∀ pieces, pieces ≠ [] → (∀ c, .one c ∈ pieces → isOrdinary c = true) →
    ∃ found, regcomp (regexText pieces) = some found ∧
      ∀ text, found text = true ↔ Glob.Occurs pieces text

theorem createRegexFromPattern_eq (pattern : CString) :
    createRegexFromPattern pattern = regexText (glob pattern) := by
  rw [createRegexFromPattern, regexText, glob, flatMap_map]
  apply flatMap_congr
  intro c _
  split <;> rfl

/-- A pattern of ordinary characters is found where it matches with a gap at either end. -/
theorem finds_iff_occurs (hregcomp : PosixBasic regcomp) (hpattern : '*' ∈ pattern)
    (hordinary : ∀ c ∈ pattern, c = '*' ∨ isOrdinary c = true) (uri : CString) :
    finds regcomp (createRegexFromPattern pattern) uri = true ↔
      Glob.Occurs (glob pattern) uri := by
  have hne : glob pattern ≠ [] := by
    intro hnil
    rw [map_eq_nil_iff.mp hnil] at hpattern
    cases hpattern
  -- what is not a star is ordinary, so it stands for itself
  have hpieces : ∀ c, .one c ∈ glob pattern → isOrdinary c = true := by
    intro c hc
    obtain ⟨c', hc', hpiece⟩ := mem_map.mp hc
    split at hpiece
    · cases hpiece
    · obtain rfl := Glob.Piece.one.inj hpiece
      exact (hordinary _ hc').resolve_left ‹_›
  obtain ⟨found, hcompiled, hfound⟩ := hregcomp _ hne hpieces
  rw [finds, createRegexFromPattern_eq, hcompiled]
  exact hfound uri

/-- A pattern of ordinary characters with a `*` at either end is found where it matches. -/
theorem searchesWholeUris_of_stars (hregcomp : PosixBasic regcomp) (db : JsonDatabase)
    (hordinary : ∀ c ∈ pattern, c = '*' ∨ isOrdinary c = true) (hfirst : pattern.head? = some '*')
    (hlast : pattern.getLast? = some '*') : SearchesWholeUris regcomp db pattern := by
  intro _ _ uri _ _
  rw [finds_iff_occurs hregcomp (mem_of_mem_head? hfirst) hordinary]
  apply Glob.occurs_iff_matches_of_gaps
  · rw [glob, head?_map, hfirst]
    rfl
  · rw [glob, getLast?_map, hlast]
    rfl

/-! ## A hub with three resources -/

/-- Read back an expression of ordinary characters and `.*`. -/
def readPieces : CString → List (Glob.Piece Char)
  | '.' :: '*' :: rest => .gap :: readPieces rest
  | c :: rest => .one c :: readPieces rest
  | [] => []

theorem readPieces_regexText {pieces : List (Glob.Piece Char)}
    (h : ∀ c, .one c ∈ pieces → isOrdinary c = true) : readPieces (regexText pieces) = pieces := by
  induction pieces with
  | nil => rfl
  | cons piece pieces ih =>
    have hrest := ih fun c hc => h c (mem_cons_of_mem _ hc)
    cases piece with
    | gap => exact congrArg (Glob.Piece.gap :: ·) hrest
    | one c =>
      -- a dot would be read as the beginning of a gap
      have hdot : c ≠ '.' := by
        intro heq
        subst heq
        exact absurd (h '.' mem_cons_self) (by decide)
      have hread :
          readPieces (c :: regexText pieces) = .one c :: readPieces (regexText pieces) := by
        rw [readPieces]
        intro _ hc
        exact absurd hc hdot
      exact hread.trans (congrArg (Glob.Piece.one c :: ·) hrest)

/-- A search for expressions of ordinary characters and `.*`. -/
def sampleRegcomp : Regcomp := fun expression =>
  some (Glob.isMatch (.gap :: (readPieces expression ++ [.gap])))

theorem sampleRegcomp_posixBasic : PosixBasic sampleRegcomp := by
  intro pieces _ hordinary
  refine ⟨_, rfl, fun text => ?_⟩
  rw [readPieces_regexText hordinary, Glob.isMatch_iff, Glob.occurs_iff_matches]

def hubResource (id : String) (mode : UInt8) : IcDeviceResource where
  id := some id.toList
  uri := some ("/hub/r/".toList ++ id.toList)
  endpointId := none
  deviceUuid := some "hub".toList
  value := some "0".toList
  type := none
  mode := mode
  cachingPolicy := .never
  dateOfLastSyncMillis := 0

/-- Two resources that may be written and one that may only be read. -/
def hub : IcDevice where
  uuid := some "hub".toList
  deviceClass := some "hub".toList
  deviceClassVersion := 1
  uri := some "/hub".toList
  managingDeviceDriver := some "hubDriver".toList
  endpoints := []
  resources := [hubResource "on" 3, hubResource "onTime" 3, hubResource "label" 1]
  metadata := []

def hubDatabase : JsonDatabase :=
  ((step (emptyDatabase true) (.addDevice (some hub) true)).map Prod.fst).getD (emptyDatabase true)

def hubDriver : DeviceDriver := ⟨"hubDriver".toList⟩

def hubService : DeviceService where
  db := hubDatabase
  deviceDrivers := some (hashMapPut hashMapCreate (stringKey "hubDriver".toList) hubDriver).1

theorem hubDatabase_wellFormed : WellFormed hubDatabase := by
  have hinv : IndexInv hubDatabase :=
    step_indexInv (emptyDatabase true) (.addDevice (some hub) true) hubDatabase true
      (emptyDatabase_indexInv true) (by decide +kernel) rfl
  have hentries : ∀ k entry, hashMapGet hubDatabase.devices k = some entry →
      entry.device = hub := by
    intro k entry hentry
    have hmem : (k, entry) ∈ [(stringKey "hub".toList, (⟨hub, false, []⟩ : DeviceCacheEntry))] :=
      mem_items_iff.mpr hentry
    rw [(Prod.mk.inj (mem_singleton.mp hmem)).2]
  refine ⟨hinv.consistent, hinv.alive, by decide +kernel, ?_, ?_⟩
  · intro uri l ⟨entry, hentry, huri⟩
    rw [hentries _ _ hentry] at huri
    have hobject : (some uri, l) ∈ deviceObjects l.entry hub := mem_deviceObjects.mpr ⟨rfl, huri⟩
    -- the uris of the hub are known
    have hmem : uri ∈ (deviceObjects l.entry hub).filterMap Prod.fst :=
      mem_filterMap.mpr ⟨_, hobject, rfl⟩
    have hshort : ∀ u ∈ ["/hub".toList, "/hub/r/on".toList, "/hub/r/onTime".toList,
        "/hub/r/label".toList], u.length + 1 < 2 ^ 16 ∧ '\x00' ∉ u := by
      decide
    exact hshort uri hmem
  · intro k entry hentry
    rw [hentries k entry hentry]
    exact some_ne_none _

theorem pattern_write_passes_hub : ∃ calls result,
    deviceServiceWriteResource hubService (fun _ => true) sampleRegcomp
        hubDatabase.resourcesByUri.items (some "*/on*".toList) (some "1".toList) =
      some (calls, result) ∧
    Delivers hubService (fun _ => true) hubDatabase.resourcesByUri.items "*/on*".toList
      (some "1".toList) calls :=
  pattern_write_passes (fun _ => true) hubDatabase_wellFormed (List.Perm.refl _) (by decide)
    (searchesWholeUris_of_stars sampleRegcomp_posixBasic hubDatabase
      (by simp [isOrdinary]) rfl rfl) _

/-- Each matching resource gets the value once through the driver of its device, and no
other resource gets it. -/
def PassesExactly (service : DeviceService) (pattern : CString) (value : Option CString)
    (calls : List WriteCall) : Prop :=
  (∀ device resource, Stored service.db device resource → MatchesGlob pattern resource →
    ∃ call ∈ calls, call.resource = resource ∧ call.newValue = value ∧
      deviceDriverManagerGetDeviceDriver service device.managingDeviceDriver =
        some (some call.driver)) ∧
  (calls.map fun call => call.resource.uri).Nodup ∧
  ∀ call ∈ calls, MatchesGlob pattern call.resource

theorem stored_hubResource {i : Nat} (h : hub.resources[i]? = some resource) :
    Stored hubDatabase hub resource :=
  ⟨stringKey "hub".toList, ⟨hub, false, []⟩, none, i, rfl, rfl, h⟩

/-- The pattern `*/label` matches a resource that may not be written and reaches nothing.
After a write that fails the pattern `*/on*` reaches no further resource.  The pattern `*/on`
reaches a resource it does not match. -/
theorem pattern_write_not_exact :
    WellFormed hubDatabase ∧ PosixBasic sampleRegcomp ∧
    (∃ result calls, deviceServiceWriteResource hubService (fun _ => true) sampleRegcomp
        hubDatabase.resourcesByUri.items (some "*/label".toList) (some "1".toList) =
        some (calls, result) ∧
          ¬ PassesExactly hubService "*/label".toList (some "1".toList) calls) ∧
    (∃ result calls, deviceServiceWriteResource hubService (fun _ => false) sampleRegcomp
        hubDatabase.resourcesByUri.items (some "*/on*".toList) (some "1".toList) =
        some (calls, result) ∧ ¬ PassesExactly hubService "*/on*".toList (some "1".toList) calls) ∧
    ∃ result calls, deviceServiceWriteResource hubService (fun _ => true) sampleRegcomp
        hubDatabase.resourcesByUri.items (some "*/on".toList) (some "1".toList) =
        some (calls, result) ∧
          ¬ PassesExactly hubService "*/on".toList (some "1".toList) calls := by
  refine ⟨hubDatabase_wellFormed, sampleRegcomp_posixBasic, ⟨false, [], by decide +kernel, ?_⟩,
    ⟨false, [⟨hubDriver, hubResource "on" 3, some "0".toList, some "1".toList⟩],
      by decide +kernel, ?_⟩,
    ⟨true, [⟨hubDriver, hubResource "on" 3, some "0".toList, some "1".toList⟩,
      ⟨hubDriver, hubResource "onTime" 3, some "0".toList, some "1".toList⟩],
      by decide +kernel, ?_⟩⟩
  · intro ⟨heach, _, _⟩
    obtain ⟨_, hcall, _⟩ := heach hub (hubResource "label" 1) (@stored_hubResource _ 2 rfl)
      ⟨_, rfl, by decide +kernel⟩
    cases hcall
  · intro ⟨heach, _, _⟩
    obtain ⟨_, hcall, hresource, _⟩ := heach hub (hubResource "onTime" 3)
      (@stored_hubResource _ 1 rfl) ⟨_, rfl, by decide +kernel⟩
    rw [mem_singleton.mp hcall] at hresource
    cases hresource
  · intro ⟨_, _, honly⟩
    obtain ⟨uri, huri, hmatches⟩ := honly _ (mem_cons_of_mem _ mem_cons_self)
    cases huri
    exact absurd hmatches (by decide +kernel)

end ZilkerSdk.Device.PatternWrite

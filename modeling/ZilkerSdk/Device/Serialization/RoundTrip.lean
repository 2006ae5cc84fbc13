import ZilkerSdk.Device.Serialization.Codec

/-!
# Storing a device and loading it again

What the decoders make of an encoded device.  Every item comes back with the uuid and the
endpoint id of its owner, every resource value as it was, and every metadata value as it
was unless it begins with a JSON object: then it comes back as that object printed, without
the text that followed it.
-/

namespace ZilkerSdk.Device.Serialization

open Types Lib Option

variable (lib : Libraries) (context : SerDesContext)

/-! ## What the decoders give back -/

/-- The items of a device name the device and, inside an endpoint, the endpoint. -/
def ownResource (uuid endpointId : Option CString) (resource : IcDeviceResource) :
    IcDeviceResource :=
  { resource with deviceUuid := uuid, endpointId := endpointId }

def ownMetadata (uuid endpointId : Option CString) (metadata : IcDeviceMetadata) :
    IcDeviceMetadata :=
  { metadata with deviceUuid := uuid, endpointId := endpointId }

def ownEndpoint (uuid : Option CString) (endpoint : IcDeviceEndpoint) : IcDeviceEndpoint :=
  { endpoint with
    deviceUuid := uuid
    resources := endpoint.resources.map (ownResource uuid endpoint.id)
    metadata := endpoint.metadata.map (ownMetadata uuid endpoint.id) }

def ownDevice (device : IcDevice) : IcDevice :=
  { device with
    endpoints := device.endpoints.map (ownEndpoint device.uuid)
    resources := device.resources.map (ownResource device.uuid none)
    metadata := device.metadata.map (ownMetadata device.uuid none) }

/-- A metadata value after it was stored: an object is printed again. -/
def restoredValue (value : Option CString) : Option CString :=
  match value.bind lib.parse with
  | some (json, _) => if json.isObject then some (lib.print json) else value
  | none => value

def restoreMetadata (metadata : IcDeviceMetadata) : IcDeviceMetadata :=
  { metadata with value := restoredValue lib metadata.value }

def restoreEndpoint (endpoint : IcDeviceEndpoint) : IcDeviceEndpoint :=
  { endpoint with metadata := endpoint.metadata.map (restoreMetadata lib) }

def restoreDevice (device : IcDevice) : IcDevice :=
  { device with
    endpoints := device.endpoints.map (restoreEndpoint lib)
    metadata := device.metadata.map (restoreMetadata lib) }

variable {lib}

theorem storedResourceValue_resourceToJSON (hlib : lib.Lawful) (resource : IcDeviceResource) :
    storedResourceValue lib context resource.mode (resourceToJSON lib context resource) =
      resource.value := by
  have hplain : (resourceValueToStore lib context resource).2 = false →
      getCJSONString (resourceToJSON lib context resource) "value".toList =
        (resourceValueToStore lib context resource).1 := by
    intro hflag
    apply getCJSONString_eq
    rw [getObjectItem_resource, resourceMembers, hflag]
    rfl
  have hencrypted : (resourceValueToStore lib context resource).2 = true →
      getCJSONString (resourceToJSON lib context resource) "value_enc".toList =
          (resourceValueToStore lib context resource).1 ∧
        getCJSONString (resourceToJSON lib context resource) "value".toList = none := by
    intro hflag
    refine ⟨getCJSONString_eq ?_, @getCJSONString_eq _ _ none ?_⟩
    · rw [getObjectItem_resource, resourceMembers, hflag]
      rfl
    · rw [getObjectItem_resource, resourceMembers, hflag]
      rfl
  -- in the clear, or encrypted under the namespace of the context
  cases hsensitive : isSensitive resource.mode with
  | false =>
    have hstore : resourceValueToStore lib context resource = (resource.value, false) := by
      simp only [resourceValueToStore, hsensitive]
    rw [hstore] at hplain
    simp only [storedResourceValue, hsensitive, hplain rfl]
  | true =>
    cases context with
    | none =>
      have hstore : resourceValueToStore lib none resource = (resource.value, false) := by
        simp only [resourceValueToStore, hsensitive]
      rw [hstore] at hplain
      simp only [storedResourceValue, hsensitive, hplain rfl]
    | some ns =>
      cases hvalue : resource.value with
      | none =>
        have hstore : resourceValueToStore lib (some ns) resource = (none, true) := by
          simp only [resourceValueToStore, hsensitive, hvalue, bind_none]
        rw [hstore] at hencrypted
        obtain ⟨henc, hval⟩ := hencrypted rfl
        simp only [storedResourceValue, hsensitive, henc, hval, bind_none]
      | some value =>
        obtain ⟨encrypted, hprotect, hunprotect⟩ :=
          bind_eq_some_iff.mp (hlib.unprotect_protect ns value)
        have hstore : resourceValueToStore lib (some ns) resource = (some encrypted, true) := by
          simp only [resourceValueToStore, hsensitive, hvalue, bind_some, hprotect]
        rw [hstore] at hencrypted
        obtain ⟨henc, -⟩ := hencrypted rfl
        simp only [storedResourceValue, hsensitive, henc, bind_some, hunprotect]

theorem resourceFromJSON_resourceToJSON (hlib : lib.Lawful) (uuid : CString)
    (endpointId : Option CString) {resource : IcDeviceResource}
    (hdate : resource.dateOfLastSyncMillis.toNat < 2 ^ 53) :
    resourceFromJSON lib context (some uuid) endpointId (resourceToJSON lib context resource) =
      some (ownResource (some uuid) endpointId resource) := by
  have hitem := getObjectItem_resource lib context resource
  have hvalue := storedResourceValue_resourceToJSON context hlib resource
  -- from here on only the members of the object count
  generalize resourceToJSON lib context resource = json at hitem hvalue ⊢
  have hid : getCJSONString json "id".toList = resource.id := getCJSONString_eq (hitem _)
  have huri : getCJSONString json "uri".toList = resource.uri := getCJSONString_eq (hitem _)
  have hmode : getCJSONInt json "mode".toList
      resourceModeReadable.toNat = resource.mode.toNat :=
    getCJSONInt_eq (hitem _) (Nat.lt_trans resource.mode.toNat_lt (by decide))
  have hpolicy : getCJSONInt json "cachingPolicy".toList 0 =
      cachingPolicyToNat resource.cachingPolicy :=
    getCJSONInt_eq (hitem _) (by cases resource.cachingPolicy <;> decide)
  have hdouble : getCJSONDouble json
      "dateOfLastSyncMillis".toList 0 = doubleOfNat resource.dateOfLastSyncMillis.toNat := by
    rw [getCJSONDouble, hitem]
    rfl
  have htype : getCJSONString json "type".toList = resource.type := by
    apply getCJSONString_eq
    rw [hitem, resourceMembers]
    cases (resourceValueToStore lib context resource).2 <;> rfl
  have hpolicy' : cachingPolicyOfInt (cachingPolicyToNat resource.cachingPolicy) =
      some resource.cachingPolicy := by
    cases resource.cachingPolicy <;> rfl
  simp only [resourceFromJSON, hid, huri, hmode, hpolicy, hpolicy', hdouble, htype,
    uint8_ofInt_toNat, hvalue, doubleOfNat_eq hdate, truncToNat_natCast, UInt64.ofNat_toNat,
    bind_eq_bind, bind_some]
  rfl

theorem storedMetadataValue_metadataToJSON (metadata : IcDeviceMetadata) :
    storedMetadataValue lib (metadataToJSON lib metadata) = restoredValue lib metadata.value := by
  have hitem : (metadataToJSON lib metadata).getObjectItem "value".toList =
      metadataValueToJSON lib metadata.value := by
    rw [getObjectItem_metadata]
    rfl
  have hstring : metadataValueToJSON lib metadata.value = metadata.value.map .string →
      storedMetadataValue lib (metadataToJSON lib metadata) = metadata.value := by
    intro hplain
    rw [hplain] at hitem
    have hget := getCJSONString_eq hitem
    rw [storedMetadataValue, hitem, hget]
    cases metadata.value <;> rfl
  unfold restoredValue
  -- not JSON, JSON that is not an object, or an object
  cases hparse : metadata.value.bind lib.parse with
  | none => exact hstring (by rw [metadataValueToJSON, hparse])
  | some parsed =>
    obtain ⟨json, rest⟩ := parsed
    cases hobject : json.isObject with
    | false =>
      have hplain := hstring (by simp [metadataValueToJSON, hparse, hobject])
      simpa [hobject] using hplain
    | true =>
      have hjson : metadataValueToJSON lib metadata.value = some json := by
        simp [metadataValueToJSON, hparse, hobject]
      rw [hjson] at hitem
      simp only [storedMetadataValue, hitem, hobject, if_true]

theorem metadataFromJSON_metadataToJSON (uuid : CString) (endpointId : Option CString)
    (metadata : IcDeviceMetadata) :
    metadataFromJSON lib (some uuid) endpointId (metadataToJSON lib metadata) =
      some (restoreMetadata lib (ownMetadata (some uuid) endpointId metadata)) := by
  have hitem := getObjectItem_metadata lib metadata
  have hid : getCJSONString (metadataToJSON lib metadata) "id".toList = metadata.id :=
    getCJSONString_eq (hitem _)
  have huri : getCJSONString (metadataToJSON lib metadata) "uri".toList = metadata.uri :=
    getCJSONString_eq (hitem _)
  simp only [metadataFromJSON, hid, huri, storedMetadataValue_metadataToJSON,
    bind_eq_bind, bind_some]
  rfl

/-! ## Encoded lists, endpoints and devices -/

section Lists

variable {α β : Type} {name : α → Option CString} {encode : α → Json} {decode : Json → Option β}
  {items : List α}

theorem listFromJSON_ofList {image : α → β} (hnames : ∀ item ∈ items, (name item).isSome)
    (hdecode : ∀ item ∈ items, decode (encode item) = some (image item)) :
    listFromJSON decode (some (.ofList name encode items)) = some (items.map image) := by
  rw [listFromJSON, Json.children_ofList encode hnames]
  exact mapM_map_eq_some hdecode

theorem listFromJSON_ofList_eq_none (hnames : ∀ item ∈ items, (name item).isSome)
    (hdecode : ∀ json, decode json = none) (hitems : items ≠ []) :
    listFromJSON decode (some (.ofList name encode items)) = none := by
  rw [listFromJSON, Json.children_ofList encode hnames]
  -- the first item already fails
  cases items with
  | nil => exact absurd rfl hitems
  | cons item rest => simp [List.mapM_cons, hdecode]

end Lists

/-- Resources that can be stored: they have an id, and a double holds their date. -/
def StorableResources (resources : List IcDeviceResource) : Prop :=
  ∀ resource ∈ resources,
    resource.id.isSome ∧ resource.dateOfLastSyncMillis.toNat < 2 ^ 53

def StorableMetadata (metadata : List IcDeviceMetadata) : Prop :=
  ∀ item ∈ metadata, item.id.isSome

structure StorableEndpoint (endpoint : IcDeviceEndpoint) : Prop where
  id : endpoint.id.isSome
  resources : StorableResources endpoint.resources
  metadata : StorableMetadata endpoint.metadata

structure Storable (device : IcDevice) : Prop where
  endpoints : ∀ endpoint ∈ device.endpoints, StorableEndpoint endpoint
  resources : StorableResources device.resources
  metadata : StorableMetadata device.metadata

theorem resourcesFromJSON_resourcesToJSON (hlib : lib.Lawful) (uuid : CString)
    (endpointId : Option CString) {resources : List IcDeviceResource}
    (hstorable : StorableResources resources) :
    resourcesFromJSON lib context (some uuid) endpointId
        (some (resourcesToJSON lib context resources)) =
      some (resources.map (ownResource (some uuid) endpointId)) := by
  apply listFromJSON_ofList
  · intro resource hresource
    exact (hstorable resource hresource).1
  · intro resource hresource
    exact resourceFromJSON_resourceToJSON context hlib uuid endpointId
      (hstorable resource hresource).2

theorem metadatasFromJSON_metadatasToJSON (uuid : CString) (endpointId : Option CString)
    {metadata : List IcDeviceMetadata} (hstorable : StorableMetadata metadata) :
    metadatasFromJSON lib (some uuid) endpointId (some (metadatasToJSON lib metadata)) =
      some (metadata.map fun item =>
        restoreMetadata lib (ownMetadata (some uuid) endpointId item)) := by
  apply listFromJSON_ofList hstorable
  intro item _
  exact metadataFromJSON_metadataToJSON uuid endpointId item

theorem endpointFromJSON_endpointToJSON (hlib : lib.Lawful) (uuid : CString)
    {endpoint : IcDeviceEndpoint} (hstorable : StorableEndpoint endpoint) :
    endpointFromJSON lib context (some uuid) (endpointToJSON lib context endpoint) =
      some (restoreEndpoint lib (ownEndpoint (some uuid) endpoint)) := by
  have hitem := getObjectItem_endpoint lib context endpoint
  generalize endpointToJSON lib context endpoint = json at hitem ⊢
  have hid : getCJSONString json "id".toList = endpoint.id := getCJSONString_eq (hitem _)
  have huri : getCJSONString json "uri".toList = endpoint.uri := getCJSONString_eq (hitem _)
  have hprofile : getCJSONString json "profile".toList = endpoint.profile :=
    getCJSONString_eq (hitem _)
  have henabled : getCJSONBool json "enabled".toList false = endpoint.enabled := by
    rw [getCJSONBool, hitem]
    rfl
  have hversion : getCJSONInt json "profileVersion".toList 1 = endpoint.profileVersion.toNat :=
    getCJSONInt_eq (hitem _) (Nat.lt_trans endpoint.profileVersion.toNat_lt (by decide))
  have hresources : json.getObjectItem "resources".toList =
      some (resourcesToJSON lib context endpoint.resources) := hitem _
  have hmetadata : json.getObjectItem "metadatas".toList =
      some (metadatasToJSON lib endpoint.metadata) := hitem _
  simp only [endpointFromJSON, hid, huri, hprofile, henabled, hversion, hresources, hmetadata,
    resourcesFromJSON_resourcesToJSON context hlib uuid endpoint.id hstorable.resources,
    metadatasFromJSON_metadatasToJSON uuid endpoint.id hstorable.metadata, uint8_ofInt_toNat,
    bind_eq_bind, bind_some, restoreEndpoint, ownEndpoint, List.map_map]
  rfl

/-- The members of an encoded device: the strings and the version as they are, the lists for
the decoders of lists. -/
theorem deviceFromJSON_eq (device : IcDevice) :
    deviceFromJSON lib context (deviceToJSON lib context device) = (do
      let endpoints ← endpointsFromJSON lib context device.uuid
        (some (endpointsToJSON lib context device.endpoints))
      let resources ← resourcesFromJSON lib context device.uuid none
        (some (resourcesToJSON lib context device.resources))
      let metadata ← metadatasFromJSON lib device.uuid none
        (some (metadatasToJSON lib device.metadata))
      return { device with endpoints := endpoints, resources := resources, metadata := metadata })
    := by
  have hitem := getObjectItem_device lib context device
  generalize deviceToJSON lib context device = json at hitem ⊢
  have huuid : getCJSONString json "uuid".toList = device.uuid := getCJSONString_eq (hitem _)
  have huri : getCJSONString json "uri".toList = device.uri := getCJSONString_eq (hitem _)
  have hdriver : getCJSONString json "deviceDriver".toList = device.managingDeviceDriver :=
    getCJSONString_eq (hitem _)
  have hclass : getCJSONString json "deviceClass".toList = device.deviceClass :=
    getCJSONString_eq (hitem _)
  have hversion : getCJSONInt json "deviceClassVersion".toList 1 =
      device.deviceClassVersion.toNat :=
    getCJSONInt_eq (hitem _) (Nat.lt_trans device.deviceClassVersion.toNat_lt (by decide))
  have hendpoints : json.getObjectItem "deviceEndpoints".toList =
      some (endpointsToJSON lib context device.endpoints) := hitem _
  have hresources : json.getObjectItem "deviceResources".toList =
      some (resourcesToJSON lib context device.resources) := hitem _
  have hmetadata : json.getObjectItem "metadatas".toList =
      some (metadatasToJSON lib device.metadata) := hitem _
  simp only [deviceFromJSON, huuid, huri, hdriver, hclass, hversion, hendpoints, hresources,
    hmetadata, uint8_ofInt_toNat]

/-- A device without items, for which no uuid is copied. -/
def Bare (device : IcDevice) : Prop :=
  device.endpoints = [] ∧ device.resources = [] ∧ device.metadata = []

instance (device : IcDevice) : Decidable (Bare device) := inferInstanceAs (Decidable (_ ∧ _))

variable {device : IcDevice}

theorem deviceFromJSON_of_uuid (hlib : lib.Lawful) (hstorable : Storable device) {uuid : CString}
    (huuid : device.uuid = some uuid) :
    deviceFromJSON lib context (deviceToJSON lib context device) =
      some (restoreDevice lib (ownDevice device)) := by
  have hendpoints : endpointsFromJSON lib context (some uuid)
      (some (endpointsToJSON lib context device.endpoints)) =
      some (device.endpoints.map fun endpoint =>
        restoreEndpoint lib (ownEndpoint (some uuid) endpoint)) := by
    apply listFromJSON_ofList
    · intro endpoint hendpoint
      exact (hstorable.endpoints endpoint hendpoint).id
    · intro endpoint hendpoint
      exact endpointFromJSON_endpointToJSON context hlib uuid
        (hstorable.endpoints endpoint hendpoint)
  simp only [deviceFromJSON_eq, huuid, hendpoints,
    resourcesFromJSON_resourcesToJSON context hlib uuid none hstorable.resources,
    metadatasFromJSON_metadatasToJSON uuid none hstorable.metadata,
    bind_eq_bind, bind_some, restoreDevice, ownDevice, List.map_map]
  rfl

/-- Without a uuid every item makes its list fail, whichever of the three lists it is in. -/
theorem deviceFromJSON_of_no_uuid (hstorable : Storable device) (huuid : device.uuid = none)
    (hbare : ¬ Bare device) :
    deviceFromJSON lib context (deviceToJSON lib context device) = none := by
  rw [deviceFromJSON_eq, huuid]
  -- the lists are decoded in this order, and the first with an item fails
  by_cases hendpoints : device.endpoints = []
  · by_cases hresources : device.resources = []
    · have hmetadata : device.metadata ≠ [] := fun hnil => hbare ⟨hendpoints, hresources, hnil⟩
      have hfail : metadatasFromJSON lib none none (some (metadatasToJSON lib device.metadata)) =
          none :=
        listFromJSON_ofList_eq_none hstorable.metadata (fun _ => rfl) hmetadata
      simp only [hfail, bind_eq_bind, bind_none, bind_fun_none]
    · have hfail : resourcesFromJSON lib context none none
          (some (resourcesToJSON lib context device.resources)) = none :=
        listFromJSON_ofList_eq_none (fun resource hresource =>
          (hstorable.resources resource hresource).1) (fun _ => rfl) hresources
      simp only [hfail, bind_eq_bind, bind_none, bind_fun_none]
  · have hfail : endpointsFromJSON lib context none
        (some (endpointsToJSON lib context device.endpoints)) = none :=
      listFromJSON_ofList_eq_none (fun endpoint hendpoint =>
        (hstorable.endpoints endpoint hendpoint).id) (fun _ => rfl) hendpoints
    simp only [hfail, bind_eq_bind, bind_none]

/-- What comes back: the device with its owners named and its objects printed again. -/
theorem deviceFromJSON_deviceToJSON (hlib : lib.Lawful) (hstorable : Storable device) :
    deviceFromJSON lib context (deviceToJSON lib context device) =
      if device.uuid.isSome ∨ Bare device then some (restoreDevice lib (ownDevice device))
      else none := by
  cases huuid : device.uuid with
  | some uuid =>
    exact deviceFromJSON_of_uuid context hlib hstorable huuid
  | none =>
    by_cases hbare : Bare device
    · obtain ⟨hendpoints, hresources, hmetadata⟩ := id hbare
      rw [if_pos (.inr hbare), deviceFromJSON_eq, restoreDevice, ownDevice, hendpoints, hresources,
        hmetadata]
      rfl
    · rw [if_neg (by simp [hbare])]
      exact deviceFromJSON_of_no_uuid context hstorable huuid hbare

/-! ## The same device -/

/-- The white space of JSON. -/
def isWhitespace (text : CString) : Bool :=
  text.all fun c => c = ' ' ∨ c = '\t' ∨ c = '\n' ∨ c = '\r'

variable (lib)

/-- The same text, or two texts of the same JSON object. -/
def SameText (value value' : Option CString) : Prop :=
  value = value' ∨ ∃ text text' json rest rest', value = some text ∧ value' = some text' ∧
    json.isObject = true ∧ lib.parse text = some (json, rest) ∧ isWhitespace rest = true ∧
      lib.parse text' = some (json, rest') ∧ isWhitespace rest' = true

def SameMetadata (metadata metadata' : IcDeviceMetadata) : Prop :=
  ∃ value, SameText lib metadata.value value ∧ metadata' = { metadata with value := value }

def SameEndpoint (endpoint endpoint' : IcDeviceEndpoint) : Prop :=
  ∃ metadata, List.Forall₂ (SameMetadata lib) endpoint.metadata metadata ∧
    endpoint' = { endpoint with metadata := metadata }

def SameDevice (device device' : IcDevice) : Prop :=
  ∃ endpoints metadata, List.Forall₂ (SameEndpoint lib) device.endpoints endpoints ∧
    List.Forall₂ (SameMetadata lib) device.metadata metadata ∧
      device' = { device with endpoints := endpoints, metadata := metadata }

/-- The device that is loaded is the one that was stored. -/
def RoundTrips (device : IcDevice) : Prop :=
  ∃ device', deviceFromJSON lib context (deviceToJSON lib context device) = some device' ∧
    SameDevice lib (ownDevice device) device'

/-- A metadata value that begins with a JSON object ends with it. -/
def nothingAfterObject (value : Option CString) : Bool :=
  match value.bind lib.parse with
  | some (json, rest) => !json.isObject || isWhitespace rest
  | none => true

def ObjectsEndValues (device : IcDevice) : Prop :=
  (∀ metadata ∈ device.metadata, nothingAfterObject lib metadata.value = true) ∧
    ∀ endpoint ∈ device.endpoints, ∀ metadata ∈ endpoint.metadata,
      nothingAfterObject lib metadata.value = true

instance (device : IcDevice) : Decidable (ObjectsEndValues lib device) :=
  inferInstanceAs (Decidable (_ ∧ _))

variable {lib}

theorem sameText_restoredValue_iff (hlib : lib.Lawful) (value : Option CString) :
    SameText lib value (restoredValue lib value) ↔ nothingAfterObject lib value = true := by
  -- only a value that begins with an object is stored as what was parsed
  cases hparse : value.bind lib.parse with
  | none =>
    have hsame : restoredValue lib value = value := by simp only [restoredValue, hparse]
    simp [SameText, nothingAfterObject, hsame, hparse]
  | some parsed =>
    obtain ⟨json, rest⟩ := parsed
    obtain ⟨text, rfl, htext⟩ := bind_eq_some_iff.mp hparse
    cases hobject : json.isObject with
    | false =>
      have hsame : restoredValue lib (some text) = some text := by
        simp [restoredValue, hparse, hobject]
      simp [SameText, nothingAfterObject, hsame, hparse, hobject]
    | true =>
      have hprinted : restoredValue lib (some text) = some (lib.print json) := by
        simp [restoredValue, hparse, hobject]
      have hreparse := hlib.parse_print text json rest htext
      have hafter : nothingAfterObject lib (some text) = isWhitespace rest := by
        simp [nothingAfterObject, hparse, hobject]
      rw [hprinted, hafter]
      constructor
      · intro hsame
        rcases hsame with heq | ⟨_, _, json', rest', _, htext', _, _, hparse', hspace, _⟩
        · -- the printed object itself has nothing after it
          rw [some.inj heq, hreparse] at htext
          cases htext
          rfl
        · rw [← some.inj htext', htext] at hparse'
          cases hparse'
          exact hspace
      · intro hspace
        exact .inr ⟨text, _, json, rest, [], rfl, rfl, hobject, htext, hspace, hreparse, rfl⟩

theorem sameMetadata_restoreMetadata_iff (hlib : lib.Lawful) (metadata : IcDeviceMetadata) :
    SameMetadata lib metadata (restoreMetadata lib metadata) ↔
      nothingAfterObject lib metadata.value = true := by
  rw [← sameText_restoredValue_iff hlib]
  constructor
  · intro ⟨value, hsame, heq⟩
    have hvalue : restoredValue lib metadata.value = value := congrArg IcDeviceMetadata.value heq
    rw [hvalue]
    exact hsame
  · intro hsame
    exact ⟨_, hsame, rfl⟩

theorem forall₂_map_iff {α : Type*} {R : α → α → Prop} {f : α → α} {p : α → Prop}
    (h : ∀ a, R a (f a) ↔ p a) (l : List α) :
    List.Forall₂ R l (l.map f) ↔ ∀ a ∈ l, p a := by
  rw [List.forall₂_map_right_iff, List.forall₂_same]
  exact forall₂_congr fun a _ => h a

theorem sameEndpoint_restoreEndpoint_iff (hlib : lib.Lawful) (endpoint : IcDeviceEndpoint) :
    SameEndpoint lib endpoint (restoreEndpoint lib endpoint) ↔
      ∀ metadata ∈ endpoint.metadata, nothingAfterObject lib metadata.value = true := by
  rw [← forall₂_map_iff (sameMetadata_restoreMetadata_iff hlib)]
  constructor
  · intro ⟨metadata, hsame, heq⟩
    have hmetadata : endpoint.metadata.map (restoreMetadata lib) = metadata :=
      congrArg IcDeviceEndpoint.metadata heq
    rw [hmetadata]
    exact hsame
  · intro hsame
    exact ⟨_, hsame, rfl⟩

theorem sameDevice_restoreDevice_iff (hlib : lib.Lawful) (device : IcDevice) :
    SameDevice lib device (restoreDevice lib device) ↔ ObjectsEndValues lib device := by
  rw [ObjectsEndValues, ← forall₂_map_iff (sameMetadata_restoreMetadata_iff hlib),
    ← forall₂_map_iff (sameEndpoint_restoreEndpoint_iff hlib)]
  constructor
  · intro ⟨endpoints, metadata, hsameEndpoints, hsameMetadata, heq⟩
    have hendpoints : device.endpoints.map (restoreEndpoint lib) = endpoints :=
      congrArg IcDevice.endpoints heq
    have hmetadata : device.metadata.map (restoreMetadata lib) = metadata :=
      congrArg IcDevice.metadata heq
    rw [hendpoints, hmetadata]
    exact ⟨hsameMetadata, hsameEndpoints⟩
  · intro ⟨hsameMetadata, hsameEndpoints⟩
    exact ⟨_, _, hsameEndpoints, hsameMetadata, rfl⟩

/-- Libraries that know one JSON value, the empty object, and protect a text by reversing it. -/
def sampleLibraries : Libraries where
  parse text :=
    match text.dropWhile fun c => isWhitespace [c] with
    | '\x7b' :: '\x7d' :: rest => some (.object [], rest)
    | _ => none
  print _ := ['\x7b', '\x7d']
  simpleProtectConfigData _ data := some data.reverse
  simpleUnprotectConfigData _ data := some data.reverse

theorem sampleLibraries_lawful : sampleLibraries.Lawful where
  parse_print text json rest h := by
    simp only [sampleLibraries] at h
    split at h
    · cases h
      rfl
    · cases h
  unprotect_protect ns data := by
    simp [sampleLibraries]

/-- A lock with one endpoint, a sensitive resource and a metadata value. -/
def lock (value : CString) : IcDevice where
  uuid := some "a1".toList
  deviceClass := some "doorLock".toList
  deviceClassVersion := 2
  uri := some "/a1".toList
  managingDeviceDriver := none
  endpoints := [{
    id := some "1".toList
    uri := some "/a1/ep/1".toList
    profile := some "lock".toList
    profileVersion := 3
    deviceUuid := some "a1".toList
    enabled := true
    resources := [{
      id := some "code".toList
      uri := some "/a1/ep/1/r/code".toList
      endpointId := some "1".toList
      deviceUuid := some "a1".toList
      value := some "1234".toList
      type := none
      mode := resourceModeReadable ||| resourceModeSensitive
      cachingPolicy := .always
      dateOfLastSyncMillis := 1600000000000 }]
    metadata := [] }]
  resources := []
  metadata := [{
    id := some "m".toList
    uri := some "/a1/m/m".toList
    endpointId := none
    deviceUuid := some "a1".toList
    value := some value }]

theorem lock_storable (value : CString) : Storable (lock value) where
  endpoints := by
    intro endpoint hendpoint
    obtain rfl := List.mem_singleton.mp hendpoint
    refine ⟨rfl, ?_, List.forall_mem_nil _⟩
    intro resource hresource
    obtain rfl := List.mem_singleton.mp hresource
    exact ⟨rfl, by decide⟩
  resources := List.forall_mem_nil _
  metadata := by
    intro metadata hmetadata
    obtain rfl := List.mem_singleton.mp hmetadata
    rfl

end ZilkerSdk.Device.Serialization

import ZilkerSdk.Device.Model
import ZilkerSdk.Types.JsonHelper

/-!
# Devices as JSON

Model of the encoders and decoders in `services/device/core/src/device`: a device
with its endpoints, resources and metadata becomes a tree of JSON objects, the items
of a list under their ids.

Two kinds of values are not stored as they are.  The value of a sensitive resource is
encrypted when the context names a namespace for the key.  The value of a metadata item
that parses as a JSON object is stored as that object and printed again when it is read.
`cJSON_Parse` does not look at the text after the first JSON value, so of a metadata
value that only begins with an object the rest is lost.

The items do not store the uuid of the device and the id of the endpoint they belong to:
the decoders copy them from the owner.  `strdup` of a NULL uuid is undefined, so the decoders
are partial.
-/

namespace ZilkerSdk.Device.Serialization

open Types Lib

/-! ## The libraries underneath -/

/-- What the encoders and decoders call outside this repository's own JSON code:
`cJSON_Parse`, which also leaves the text after the value, `cJSON_Print`, and the protection
of data with the key of a namespace. -/
structure Libraries where
  parse : CString → Option (Json × CString)
  print : Json → CString
  simpleProtectConfigData : CString → CString → Option CString
  simpleUnprotectConfigData : CString → CString → Option CString

/-- Printing and parsing, protecting and unprotecting are inverse to each other.  It is taken for
granted that protecting gives a text; `Config.protectConfigData_unfit` has the texts for which the
source gives `NULL`, the empty one and those with more than 65520 bytes. -/
structure Libraries.Lawful (lib : Libraries) : Prop where
  parse_print : ∀ text json rest, lib.parse text = some (json, rest) →
    lib.parse (lib.print json) = some (json, [])
  unprotect_protect : ∀ ns data,
    (lib.simpleProtectConfigData ns data).bind (lib.simpleUnprotectConfigData ns) = some data

/-- The context of a (de)serialisation: the value under `namespace`, if there is one. -/
abbrev SerDesContext := Option CString

variable (lib : Libraries) (context : SerDesContext)

/-- `cJSON_AddStringToObject`: NULL adds nothing. -/
def stringMember (key : String) (s : Option CString) : CString × Option Json :=
  (key.toList, s.map .string)

/-- `cJSON_AddNumberToObject` of an integer that a double holds. -/
def natMember (key : String) (n : Nat) : CString × Option Json :=
  (key.toList, some (.number n))

/-! ## Resources -/

def isSensitive (mode : UInt8) : Bool := mode &&& resourceModeSensitive ≠ 0

def cachingPolicyToNat : ResourceCachingPolicy → Nat
  | .never => 0
  | .always => 1

/-- The value and whether it goes under `value_enc`.  When the protection gives NULL the value
itself is stored there. -/
def resourceValueToStore (resource : IcDeviceResource) : Option CString × Bool :=
  match isSensitive resource.mode, context with
  | true, some ns =>
    match resource.value.bind (lib.simpleProtectConfigData ns) with
    | some encrypted => (some encrypted, true)
    | none => (resource.value, true)
  | _, _ => (resource.value, false)

/-- The members in the order in which they are added. -/
def resourceMembers (resource : IcDeviceResource) : List (CString × Option Json) :=
  [stringMember "id" resource.id,
    stringMember "uri" resource.uri,
    natMember "mode" resource.mode.toNat,
    natMember "cachingPolicy" (cachingPolicyToNat resource.cachingPolicy),
    ("dateOfLastSyncMillis".toList,
      some (.number (doubleOfNat resource.dateOfLastSyncMillis.toNat))),
    stringMember (if (resourceValueToStore lib context resource).2 then "value_enc" else "value")
      (resourceValueToStore lib context resource).1,
    stringMember "type" resource.type]

def resourceToJSON (resource : IcDeviceResource) : Json :=
  .ofOptional (resourceMembers lib context resource)

/-- The value of a stored resource: decrypted if it is there encrypted, else as it is. -/
def storedResourceValue (mode : UInt8) (json : Json) : Option CString :=
  let resourceValue :=
    match isSensitive mode, context with
    | true, some ns =>
      (getCJSONString json "value_enc".toList).bind (lib.simpleUnprotectConfigData ns)
    | _, _ => none
  match resourceValue with
  | some value => some value
  -- a value that cannot be decrypted is looked for in the clear
  | none => getCJSONString json "value".toList

/-- `none` when the integer names no policy. -/
def cachingPolicyOfInt : Int → Option ResourceCachingPolicy
  | 0 => some .never
  | 1 => some .always
  | _ => none

def resourceFromJSON (deviceUUID endpointId : Option CString) (json : Json) :
    Option IcDeviceResource := do
  -- `strdup` of a NULL uuid
  let deviceUUID ← deviceUUID
  let mode := UInt8.ofInt (getCJSONInt json "mode".toList resourceModeReadable.toNat)
  let cachingPolicy ← cachingPolicyOfInt (getCJSONInt json "cachingPolicy".toList 0)
  return {
    deviceUuid := some deviceUUID
    endpointId := endpointId
    uri := getCJSONString json "uri".toList
    id := getCJSONString json "id".toList
    mode := mode
    value := storedResourceValue lib context mode json
    type := getCJSONString json "type".toList
    cachingPolicy := cachingPolicy
    dateOfLastSyncMillis :=
      UInt64.ofNat (truncToNat (getCJSONDouble json "dateOfLastSyncMillis".toList 0)) }

/-! ## Metadata -/

/-- The JSON of a metadata value: the object it begins with, else a string. -/
def metadataValueToJSON (value : Option CString) : Option Json :=
  match value.bind lib.parse with
  -- an array, a number or a string stays the text it was
  | some (json, _) => if json.isObject then some json else value.map .string
  | none => value.map .string

/-- The members in the order in which they are added. -/
def metadataMembers (metadata : IcDeviceMetadata) : List (CString × Option Json) :=
  [stringMember "id" metadata.id,
    stringMember "uri" metadata.uri,
    ("value".toList, metadataValueToJSON lib metadata.value)]

def metadataToJSON (metadata : IcDeviceMetadata) : Json :=
  .ofOptional (metadataMembers lib metadata)

def storedMetadataValue (json : Json) : Option CString :=
  match json.getObjectItem "value".toList with
  | some valueJSON =>
    if valueJSON.isObject then some (lib.print valueJSON)
    else getCJSONString json "value".toList
  | none => getCJSONString json "value".toList

def metadataFromJSON (deviceUUID endpointId : Option CString) (json : Json) :
    Option IcDeviceMetadata := do
  let deviceUUID ← deviceUUID
  return {
    id := getCJSONString json "id".toList
    value := storedMetadataValue lib json
    uri := getCJSONString json "uri".toList
    deviceUuid := some deviceUUID
    endpointId := endpointId }

/-! ## Lists -/

def resourcesToJSON (resources : List IcDeviceResource) : Json :=
  .ofList IcDeviceResource.id (resourceToJSON lib context) resources

def metadatasToJSON (metadatas : List IcDeviceMetadata) : Json :=
  .ofList IcDeviceMetadata.id (metadataToJSON lib) metadatas

/-- The loop of the three list decoders over the items of an object; a missing object is an
empty list. -/
def listFromJSON {α : Type} (decode : Json → Option α) (json : Option Json) : Option (List α) :=
  match json with
  | some json => json.children.mapM decode
  | none => some []

def resourcesFromJSON (deviceUUID endpointId : Option CString) (json : Option Json) :
    Option (List IcDeviceResource) :=
  listFromJSON (resourceFromJSON lib context deviceUUID endpointId) json

def metadatasFromJSON (deviceUUID endpointId : Option CString) (json : Option Json) :
    Option (List IcDeviceMetadata) :=
  listFromJSON (metadataFromJSON lib deviceUUID endpointId) json

/-! ## Endpoints -/

/-- The members in the order in which they are added. -/
def endpointMembers (endpoint : IcDeviceEndpoint) : List (CString × Option Json) :=
  [stringMember "uri" endpoint.uri,
    stringMember "id" endpoint.id,
    stringMember "profile" endpoint.profile,
    ("enabled".toList, some (.bool endpoint.enabled)),
    natMember "profileVersion" endpoint.profileVersion.toNat,
    ("resources".toList, some (resourcesToJSON lib context endpoint.resources)),
    ("metadatas".toList, some (metadatasToJSON lib endpoint.metadata))]

def endpointToJSON (endpoint : IcDeviceEndpoint) : Json :=
  .ofOptional (endpointMembers lib context endpoint)

def endpointFromJSON (deviceUUID : Option CString) (json : Json) : Option IcDeviceEndpoint := do
  let uuid ← deviceUUID
  -- the items of the endpoint get the id that was read, NULL or not
  let id := getCJSONString json "id".toList
  let resources ← resourcesFromJSON lib context (some uuid) id
    (json.getObjectItem "resources".toList)
  let metadata ← metadatasFromJSON lib (some uuid) id (json.getObjectItem "metadatas".toList)
  return {
    deviceUuid := some uuid
    id := id
    uri := getCJSONString json "uri".toList
    enabled := getCJSONBool json "enabled".toList false
    profile := getCJSONString json "profile".toList
    profileVersion := UInt8.ofInt (getCJSONInt json "profileVersion".toList 1)
    resources := resources
    metadata := metadata }

def endpointsToJSON (endpoints : List IcDeviceEndpoint) : Json :=
  .ofList IcDeviceEndpoint.id (endpointToJSON lib context) endpoints

def endpointsFromJSON (deviceUUID : Option CString) (json : Option Json) :
    Option (List IcDeviceEndpoint) :=
  listFromJSON (endpointFromJSON lib context deviceUUID) json

/-! ## Devices -/

/-- The members in the order in which they are added. -/
def deviceMembers (device : IcDevice) : List (CString × Option Json) :=
  [stringMember "deviceDriver" device.managingDeviceDriver,
    stringMember "deviceClass" device.deviceClass,
    natMember "deviceClassVersion" device.deviceClassVersion.toNat,
    stringMember "uri" device.uri,
    stringMember "uuid" device.uuid,
    ("deviceEndpoints".toList, some (endpointsToJSON lib context device.endpoints)),
    ("deviceResources".toList, some (resourcesToJSON lib context device.resources)),
    ("metadatas".toList, some (metadatasToJSON lib device.metadata))]

def deviceToJSON (device : IcDevice) : Json := .ofOptional (deviceMembers lib context device)

def deviceFromJSON (json : Json) : Option IcDevice := do
  let uuid := getCJSONString json "uuid".toList
  let endpoints ← endpointsFromJSON lib context uuid (json.getObjectItem "deviceEndpoints".toList)
  let resources ←
    resourcesFromJSON lib context uuid none (json.getObjectItem "deviceResources".toList)
  let metadata ← metadatasFromJSON lib uuid none (json.getObjectItem "metadatas".toList)
  return {
    uri := getCJSONString json "uri".toList
    uuid := uuid
    managingDeviceDriver := getCJSONString json "deviceDriver".toList
    deviceClass := getCJSONString json "deviceClass".toList
    deviceClassVersion := UInt8.ofInt (getCJSONInt json "deviceClassVersion".toList 1)
    endpoints := endpoints
    resources := resources
    metadata := metadata }

/-! ## Looking up members -/

theorem getObjectItem_resource (resource : IcDeviceResource) (name : CString) :
    (resourceToJSON lib context resource).getObjectItem name =
      ((resourceMembers lib context resource).find? fun m => Json.sameName m.1 name).bind
        Prod.snd := by
  apply Json.getObjectItem_ofOptional
  rw [Json.DistinctNames, resourceMembers]
  -- the value is stored under one of two names
  cases (resourceValueToStore lib context resource).2 <;>
  · simp only [stringMember, natMember, List.map_cons, List.map_nil, if_true, Bool.false_eq_true,
      if_false]
    decide

theorem getObjectItem_metadata (metadata : IcDeviceMetadata) (name : CString) :
    (metadataToJSON lib metadata).getObjectItem name =
      ((metadataMembers lib metadata).find? fun m => Json.sameName m.1 name).bind Prod.snd := by
  apply Json.getObjectItem_ofOptional
  simp only [Json.DistinctNames, metadataMembers, stringMember, List.map_cons, List.map_nil]
  decide

theorem getObjectItem_endpoint (endpoint : IcDeviceEndpoint) (name : CString) :
    (endpointToJSON lib context endpoint).getObjectItem name =
      ((endpointMembers lib context endpoint).find? fun m => Json.sameName m.1 name).bind
        Prod.snd := by
  apply Json.getObjectItem_ofOptional
  simp only [Json.DistinctNames, endpointMembers, stringMember, natMember, List.map_cons,
    List.map_nil]
  decide

theorem getObjectItem_device (device : IcDevice) (name : CString) :
    (deviceToJSON lib context device).getObjectItem name =
      ((deviceMembers lib context device).find? fun m => Json.sameName m.1 name).bind
        Prod.snd := by
  apply Json.getObjectItem_ofOptional
  simp only [Json.DistinctNames, deviceMembers, stringMember, natMember, List.map_cons,
    List.map_nil]
  decide

end ZilkerSdk.Device.Serialization

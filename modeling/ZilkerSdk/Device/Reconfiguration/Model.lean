import ZilkerSdk.Device.PairingRemoval

/-!
# Reconfiguring a device

Model of `reconfigureDevice`, `yoinkCustomizedDeviceData` and `yoinkResource` in
`services/device/core/src/deviceService.c`, with `createDevice` and the common resources of a
new device.  A new device is built beside the stored one, the metadata, the date added and the
labels of the old one are moved into it, the old one is removed from the database and the new
one is added.

The old device is a clone of what is stored, and moving a list leaves NULL behind.  A new
endpoint that is handed such a NULL has no metadata list any more, and cloning it is undefined.

The callbacks of the driver are functions: each fills in the lists of the device it is given, or
fails.  The metadata of the descriptor of the device, the current time and the outcomes of the
storage are inputs.  As in `PairingRemoval`, the write of the time zone to a device that is
about to be added is left out.
-/

namespace ZilkerSdk.Device.Reconfiguration

open Types Device.Database Device.PairingRemoval

/-! ## Looking for resources -/

def dateAddedId : CString := "dateAdded".toList
def labelId : CString := "label".toList

/-- The loop of `deviceServiceFindDeviceResourceById`; an id that is NULL is not checked for. -/
def findResourceById (resourceId : CString) :
    List IcDeviceResource → Option (Option IcDeviceResource)
  | [] => some none
  | resource :: rest => do
    let id ← resource.id
    if id = resourceId then some (some resource) else findResourceById resourceId rest

/-- `deviceServiceGetResourceByIdInternal`: the uri goes without an endpoint if its id is NULL. -/
def deviceServiceGetResourceById (db : JsonDatabase) (uuid : CString) (endpointId : Option CString)
    (resourceId : CString) : Option (Option IcDeviceResource) :=
  let base := match endpointId with
    | none => "/".toList ++ uuid
    | some endpointId => getEndpointUri uuid endpointId
  jsonDatabaseGetResourceByUri db (some (base ++ "/r/".toList ++ resourceId))

/-! ## A new device -/

def createDeviceMetadata (uuid : CString) (item : CString × CString) : IcDeviceMetadata where
  id := some item.1
  uri := some ("/".toList ++ uuid ++ "/m/".toList ++ item.1)
  endpointId := none
  deviceUuid := some uuid
  value := some item.2

/-- `createDevice`; NULL arguments give no device. -/
def createDevice (uuid deviceClass : Option CString) (deviceClassVersion : UInt8)
    (driverName : Option CString) (descriptorMetadata : List (CString × CString)) :
    Option IcDevice := do
  let uuid ← uuid
  let deviceClass ← deviceClass
  let driverName ← driverName
  some {
    uuid := some uuid
    deviceClass := some deviceClass
    deviceClassVersion := deviceClassVersion
    uri := none
    managingDeviceDriver := some driverName
    endpoints := []
    resources := []
    metadata := descriptorMetadata.map (createDeviceMetadata uuid) }

/-- `createDeviceResource`: a dynamic resource is made capable of it. -/
def createDeviceResource (device : IcDevice) (id : String) (value : Option CString) (type : String)
    (mode : UInt8) (cachingPolicy : ResourceCachingPolicy) : IcDevice :=
  let mode := if mode &&& resourceModeDynamic ≠ 0 then mode ||| resourceModeDynamicCapable else mode
  { device with resources := device.resources ++ [{
      id := some id.toList
      uri := none
      endpointId := none
      deviceUuid := device.uuid
      value := value
      type := some type.toList
      mode := mode
      cachingPolicy := cachingPolicy
      dateOfLastSyncMillis := 0 }] }

@[simp] theorem createDeviceResource_uuid (device : IcDevice) (id : String)
    (value : Option CString) (type : String) (mode : UInt8)
    (cachingPolicy : ResourceCachingPolicy) :
    (createDeviceResource device id value type mode cachingPolicy).uuid = device.uuid := rfl

/-- What is known of a device before it is configured. -/
structure CommonValues where
  manufacturer : Option CString
  model : Option CString
  hardwareVersion : Option CString
  firmwareVersion : Option CString

/-- `fetchCommonResourcesInitialValues` and `addCommonResources`: every value that the second
asks for has been put by the first, so neither fails. -/
def addCommonResources (device : IcDevice) (values : CommonValues) (now : CString) : IcDevice :=
  let readable := resourceModeReadable
  let reported := resourceModeReadable ||| resourceModeDynamic ||| resourceModeEmitEvents
  let contacted := resourceModeReadable ||| resourceModeDynamic ||| resourceModeLazySaveNext
  let device := createDeviceResource device "manufacturer" values.manufacturer
    "com.icontrol.string" readable .always
  let device := createDeviceResource device "model" values.model
    "com.icontrol.string" readable .always
  let device := createDeviceResource device "hardwareVersion" values.hardwareVersion
    "com.icontrol.version" readable .always
  let device := createDeviceResource device "firmwareVersion" values.firmwareVersion
    "com.icontrol.version" reported .always
  let device := createDeviceResource device "firmwareUpdateStatus" none
    "com.icontrol.firmwareVersionStatus" reported .always
  let device := createDeviceResource device "dateAdded" (some now)
    "com.icontrol.dateTime" readable .always
  let device := createDeviceResource device "dateLastContacted" (some now)
    "com.icontrol.dateTime" contacted .always
  let device := createDeviceResource device "communicationFailure" (some "false".toList)
    "com.icontrol.trouble" reported .always
  createDeviceResource device "resetToFactoryDefaults" none
    "com.icontrol.resetToFactoryOperation" resourceModeExecutable .never

@[simp] theorem addCommonResources_uuid (device : IcDevice) (values : CommonValues)
    (now : CString) : (addCommonResources device values now).uuid = device.uuid := by
  simp only [addCommonResources, createDeviceResource_uuid]

/-- What a driver can change of a device: the strings that identify it were set by
`createDevice`. -/
structure Contents where
  endpoints : List IcDeviceEndpoint
  resources : List IcDeviceResource
  metadata : List IcDeviceMetadata

def Contents.fill (device : IcDevice) (contents : Contents) : IcDevice :=
  { device with
    endpoints := contents.endpoints
    resources := contents.resources
    metadata := contents.metadata }

@[simp] theorem Contents.fill_uuid (device : IcDevice) (contents : Contents) :
    (contents.fill device).uuid = device.uuid := rfl

/-- `DeviceDriver`, as far as a reconfiguration uses it.  A callback that fails gives nothing. -/
structure DeviceDriver where
  driverName : Option CString
  getDeviceClassVersion : Option (Option CString → Option UInt8)
  configureDevice : IcDevice → Option Contents
  fetchInitialResourceValues : IcDevice → Option Contents
  registerResources : IcDevice → Option Contents

/-- The callbacks in turn, up to the first that fails. -/
def configureNewDevice (driver : DeviceDriver) (device : IcDevice) (values : CommonValues)
    (now : CString) : Option IcDevice := do
  let device := (← driver.configureDevice device).fill device
  let device := addCommonResources device values now
  let device := (← driver.fetchInitialResourceValues device).fill device
  let device := (← driver.registerResources device).fill device
  some device

/-- The first part of `reconfigureDevice`: the new device, if it can be made. -/
def makeNewDevice (device : IcDevice) (driver : DeviceDriver)
    (descriptorMetadata : List (CString × CString)) (now : CString) : Option (Option IcDevice) :=
  match driver.getDeviceClassVersion with
  | none => some none
  | some getDeviceClassVersion => do
    let manufacturer ← findResourceById "manufacturer".toList device.resources
    let model ← findResourceById "model".toList device.resources
    let hardwareVersion ← findResourceById "hardwareVersion".toList device.resources
    let firmwareVersion ← findResourceById "firmwareVersion".toList device.resources
    match manufacturer, model, hardwareVersion, firmwareVersion with
    | some manufacturer, some model, some hardwareVersion, some firmwareVersion =>
      match getDeviceClassVersion device.deviceClass with
      | none => some none
      | some version => do
        -- a driver is not asked whether it has been given a device
        let created ← createDevice device.uuid device.deviceClass version driver.driverName
          descriptorMetadata
        some (configureNewDevice driver created
          ⟨manufacturer.value, model.value, hardwareVersion.value, firmwareVersion.value⟩ now)
    | _, _, _, _ => some none

/-! ## Moving the customized data -/

/-- `yoinkResource`: the first resource with the id takes the value, and leaves NULL behind. -/
def yoinkResource (resourceId : CString) (value : Option CString) :
    List IcDeviceResource → List IcDeviceResource × Option CString
  | [] => ([], value)
  | resource :: rest =>
    if resource.id = some resourceId then ({ resource with value := value } :: rest, none)
    else
      let (rest, value) := yoinkResource resourceId value rest
      (resource :: rest, value)

/-- Give the date added of the old device to a list of resources, if there is one. -/
def yoinkDateAdded (oldDateAddedRes : Option IcDeviceResource) (resources : List IcDeviceResource) :
    List IcDeviceResource :=
  match oldDateAddedRes with
  | none => resources
  | some oldRes => (yoinkResource dateAddedId oldRes.value resources).1

/-- An endpoint of the new device with its list of metadata, which may have become NULL. -/
structure NewEndpoint where
  endpoint : IcDeviceEndpoint
  metadata : Option (List IcDeviceMetadata)

def NewEndpoint.ofEndpoint (e : IcDeviceEndpoint) : NewEndpoint := ⟨e, some e.metadata⟩

/-- The endpoint as `endpointClone` copies it. -/
def NewEndpoint.clone (e : NewEndpoint) : Option IcDeviceEndpoint :=
  e.metadata.map fun metadata => { e.endpoint with metadata := metadata }

/-- Give the label of the old endpoint to a list of resources, if there is one. -/
def yoinkLabel (label : Option (Option CString)) (resources : List IcDeviceResource) :
    List IcDeviceResource × Option (Option CString) :=
  match label with
  | none => (resources, none)
  | some value =>
    let (resources, value) := yoinkResource labelId value resources
    (resources, some value)

/-- The inner loop of `yoinkCustomizedDeviceData`: every new endpoint with the id is matched, and
the first takes what there is. -/
def yoinkEndpoint (id : Option CString) :
    Option (Option CString) → Option (List IcDeviceMetadata) → List NewEndpoint →
      List NewEndpoint × Bool
  | _, _, [] => ([], false)
  | label, metadata, e :: rest =>
    if e.endpoint.id = id then
      let (resources, label) := yoinkLabel label e.endpoint.resources
      let (rest, _) := yoinkEndpoint id label none rest
      (⟨{ e.endpoint with resources := resources }, metadata⟩ :: rest, true)
    else
      let (rest, endpointMatched) := yoinkEndpoint id label metadata rest
      (e :: rest, endpointMatched)

/-- The outer loop, which stops at an endpoint without a match. -/
def yoinkEndpoints (db : JsonDatabase) (uuid : CString) :
    List IcDeviceEndpoint → List NewEndpoint → Option (List NewEndpoint × Bool)
  | [], es => some (es, true)
  | old :: rest, es => do
    let oldLabelRes ← deviceServiceGetResourceById db uuid old.id labelId
    let (es, endpointMatched) := yoinkEndpoint old.id (oldLabelRes.map (·.value))
      (some old.metadata) es
    if endpointMatched then yoinkEndpoints db uuid rest es else some (es, false)

/-- `yoinkCustomizedDeviceData`: the resources and the endpoints of the new device, and the
result; its metadata are those of the old one. -/
def yoinkCustomizedDeviceData (db : JsonDatabase) (uuid : CString)
    (oldDevice newDevice : IcDevice) :
    Option (List IcDeviceResource × List NewEndpoint × Bool) := do
  let oldDateAddedRes ← deviceServiceGetResourceById db uuid none dateAddedId
  let resources := yoinkDateAdded oldDateAddedRes newDevice.resources
  let (endpoints, result) ← yoinkEndpoints db uuid oldDevice.endpoints
    (newDevice.endpoints.map NewEndpoint.ofEndpoint)
  some (resources, endpoints, result)

/-! ## Reconfiguring -/

/-- The new device with the data of the old one, as `deviceClone` copies it. -/
def yoinkedDevice (oldDevice newDevice : IcDevice) (resources : List IcDeviceResource)
    (endpoints : List NewEndpoint) : Option IcDevice := do
  let endpoints ← endpoints.mapM NewEndpoint.clone
  some { newDevice with
    metadata := oldDevice.metadata
    resources := resources
    endpoints := endpoints }

/-- `reconfigureDevice`; what the removal and the addition return is not looked at. -/
def reconfigureDevice (db : JsonDatabase) (device : IcDevice) (driver : DeviceDriver)
    (descriptorMetadata : List (CString × CString)) (now : CString) (deleted saved : Bool) :
    Option (JsonDatabase × Bool) := do
  match ← makeNewDevice device driver descriptorMetadata now with
  | none => some (db, false)
  | some newDevice =>
    let uuid ← device.uuid
    let (resources, endpoints, result) ← yoinkCustomizedDeviceData db uuid device newDevice
    if result then
      let (db, _) ← jsonDatabaseRemoveDeviceById db device.uuid deleted
      let newDevice ← yoinkedDevice device newDevice resources endpoints
      let (db, _) ← finalizeNewDevice db newDevice false saved
      some (db, true)
    else some (db, false)

end ZilkerSdk.Device.Reconfiguration

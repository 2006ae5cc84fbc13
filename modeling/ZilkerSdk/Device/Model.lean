import ZilkerSdk.Types.HashMap

/-!
# The device data model

The structures of `services/device/core/public/device`: a device has endpoints,
resources and metadata, an endpoint has resources and metadata.  Strings that
may be `NULL` are optional; the linked lists are never `NULL` and hold no `NULL`
items, as the constructors of the device service make them.
-/

namespace ZilkerSdk.Device

open Types

/-! ## Resources -/

inductive ResourceCachingPolicy where
  | never
  | always
deriving DecidableEq, Repr

/-- `icDeviceResource`; `mode` is a bitmask of `RESOURCE_MODE_*`. -/
structure IcDeviceResource where
  id : Option CString
  uri : Option CString
  endpointId : Option CString
  deviceUuid : Option CString
  value : Option CString
  type : Option CString
  mode : UInt8
  cachingPolicy : ResourceCachingPolicy
  dateOfLastSyncMillis : UInt64
deriving DecidableEq, Repr

def resourceModeReadable : UInt8 := 1
def resourceModeWriteable : UInt8 := 2
def resourceModeExecutable : UInt8 := 4
def resourceModeDynamicCapable : UInt8 := 8
def resourceModeDynamic : UInt8 := 16
def resourceModeEmitEvents : UInt8 := 32
def resourceModeLazySaveNext : UInt8 := 64
def resourceModeSensitive : UInt8 := 128

/-! ## Metadata, endpoints and devices -/

structure IcDeviceMetadata where
  id : Option CString
  uri : Option CString
  endpointId : Option CString
  deviceUuid : Option CString
  value : Option CString
deriving DecidableEq, Repr

structure IcDeviceEndpoint where
  id : Option CString
  uri : Option CString
  profile : Option CString
  profileVersion : UInt8
  deviceUuid : Option CString
  enabled : Bool
  resources : List IcDeviceResource
  metadata : List IcDeviceMetadata
deriving DecidableEq, Repr

structure IcDevice where
  uuid : Option CString
  deviceClass : Option CString
  deviceClassVersion : UInt8
  uri : Option CString
  managingDeviceDriver : Option CString
  endpoints : List IcDeviceEndpoint
  resources : List IcDeviceResource
  metadata : List IcDeviceMetadata
deriving DecidableEq, Repr, Inhabited

end ZilkerSdk.Device

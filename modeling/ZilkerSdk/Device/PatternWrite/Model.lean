import ZilkerSdk.Device.Database.Atomicity
import ZilkerSdk.Lib.Glob

/-!
# Writing to the resources that match a pattern

Model of `deviceServiceWriteResource` in `services/device/core/src/deviceService.c` and of
`getItemsByUriRegex` in `database/jsonDatabase.c`.  A uri with a `*` is a pattern.  It is
turned into a basic regular expression by putting a `.` before every `*`; the stored
resources in whose uri the expression is found are written one after the other, in the
order of the hash map, until a write fails.

`regcomp` and `regexec` are a parameter: the predicate a regular expression compiles to.
The driver calls are the trace a call leaves; what the drivers return is an argument.  The
resources the drivers save when they are called back are not followed: they have other
values, but neither another uri nor another mode.
-/

namespace ZilkerSdk.Device.PatternWrite

open Types Lib Device.Database

/-! ## State -/

/-- `DeviceDriver`, as far as this file tells one from another. -/
structure DeviceDriver where
  driverName : CString
deriving DecidableEq, Repr

/-- The database and the map of `deviceDriverManager.c`, which is NULL before the start. -/
structure DeviceService where
  db : JsonDatabase
  deviceDrivers : Option (IcHashMap Key DeviceDriver)

/-- A call of the `writeResource` function of a driver. -/
structure WriteCall where
  driver : DeviceDriver
  resource : IcDeviceResource
  previousValue : Option CString
  newValue : Option CString
deriving DecidableEq, Repr

/-- `regcomp` without flags, and `regexec` with what it compiled; `none` for an expression
that is refused. -/
abbrev Regcomp := CString → Option (CString → Bool)

variable (service : DeviceService) (answers : WriteCall → Bool)

/-! ## Lookups -/

def deviceServiceGetDeviceByUri (db : JsonDatabase) (uri : Option CString) :
    Option (Option IcDevice) :=
  match answer db (.deviceByUri uri) with
  | some (.device device) => some device
  | _ => none

/-- `deviceDriverManagerGetDeviceDriver`; the name is not checked for NULL. -/
def deviceDriverManagerGetDeviceDriver (driverName : Option CString) :
    Option (Option DeviceDriver) :=
  match service.deviceDrivers with
  | none => some none
  | some drivers => driverName.map fun name => hashMapGet drivers (stringKey name)

def getDeviceDriverForUri (uri : Option CString) : Option (Option DeviceDriver) := do
  match ← deviceServiceGetDeviceByUri service.db uri with
  | some device => deviceDriverManagerGetDeviceDriver service device.managingDeviceDriver
  | none => some none

/-! ## One write -/

/-- The first part of `deviceServiceWriteResourceNoPattern`: the resource at the uri, else
the resource of the device at the same place below the device's uri. -/
def findResource (uri : Option CString) : Option (Option IcDeviceResource) := do
  match ← jsonDatabaseGetResourceByUri service.db uri with
  | some resource => some (some resource)
  | none =>
    match ← jsonDatabaseGetEndpointByUri service.db uri, uri with
    | some endpoint, some uri =>
      match ← jsonDatabaseGetDeviceById service.db endpoint.deviceUuid with
      | none => some none
      | some device =>
        let endpointUri ← endpoint.uri
        let deviceUri ← device.uri
        let altUri := deviceUri ++ uri.drop endpointUri.length
        -- `uri + strlen(endpoint->uri)` may not point behind the uri
        if uri.length < endpointUri.length then none
        else jsonDatabaseGetResourceByUri service.db (some altUri)
    | _, _ => some none

def deviceServiceWriteResourceNoPattern (uri value : Option CString) :
    Fallible (List WriteCall) := fun calls => do
  match ← findResource service uri with
  | none => some (calls, false)
  | some resource =>
    -- a resource that may not be written is refused
    if resource.mode &&& resourceModeWriteable = 0 then some (calls, false)
    else
      -- the driver is looked up by the uri of the call, not by that of the resource
      match ← getDeviceDriverForUri service uri with
      | none => some (calls, false)
      | some driver =>
        let call : WriteCall := ⟨driver, resource, resource.value, value⟩
        some (calls ++ [call], answers call)

/-! ## Patterns -/

def isUriPattern (uri : CString) : Bool := '*' ∈ uri

def createRegexFromPattern (uri : CString) : CString :=
  uri.flatMap fun c => if c = '*' then ['.', '*'] else [c]

/-- A key of the hash map read as a C string; a key that was cut short has no end. -/
def keyString (key : Key) : Option CString :=
  if '\x00' ∈ key then some (key.takeWhile (· ≠ '\x00')) else none

/-- The loop of `getItemsByUriRegex` over the index.  `fetch` gives the object behind a
locator of the type that is looked for. -/
def collectItems {α : Type} (found : CString → Bool) (fetch : Locator → Option (Option α)) :
    List (Key × Locator) → Option (List α)
  | [] => some []
  | (key, locator) :: rest =>
    match fetch locator with
    -- an object of another type
    | none => collectItems found fetch rest
    | some item => do
      let uri ← keyString key
      -- `regexec` looks for the expression anywhere in the key
      if found uri then
        let item ← item
        let items ← collectItems found fetch rest
        some (item :: items)
      else collectItems found fetch rest

/-- `getItemsByUriRegex`; `walk` are the entries of the index in the order of the iterator. -/
def getItemsByUriRegex {α : Type} (regcomp : Regcomp) (fetch : Locator → Option (Option α))
    (walk : List (Key × Locator)) (uriRegex : CString) : Option (List α) :=
  match regcomp uriRegex with
  | some found => collectItems found fetch walk
  -- an expression that does not compile finds nothing
  | none => some []

/-- The resource behind a locator of a resource. -/
def resourceAt (db : JsonDatabase) : Locator → Option (Option IcDeviceResource)
  | .resource k endpoint j => some (derefResource db k endpoint j)
  | _ => none

def jsonDatabaseGetResourcesByUriRegex (regcomp : Regcomp) (db : JsonDatabase)
    (walk : List (Key × Locator)) (uriRegex : CString) : Option (List IcDeviceResource) :=
  getItemsByUriRegex regcomp (resourceAt db) walk uriRegex

/-- The loop of `deviceServiceWriteResource`: `result = result && write`.  The count of the
list has 16 bits, and the iterator goes by it too. -/
def writeResources (value : Option CString) (resources : List IcDeviceResource) :
    Fallible (List WriteCall) :=
  -- no hit, or a count that has wrapped to zero
  if resources.length % 2 ^ 16 = 0 then .refuse
  else .forEach (fun item => deviceServiceWriteResourceNoPattern service answers item.uri value)
    resources

/-- `deviceServiceWriteResource`: the calls it makes and its result. -/
def deviceServiceWriteResource (regcomp : Regcomp) (walk : List (Key × Locator))
    (uri value : Option CString) : Option (List WriteCall × Bool) :=
  match uri with
  | none => some ([], false)
  | some pattern =>
    if isUriPattern pattern then do
      let resources ← jsonDatabaseGetResourcesByUriRegex regcomp service.db walk
        (createRegexFromPattern pattern)
      writeResources service answers value resources []
    else deviceServiceWriteResourceNoPattern service answers (some pattern) value []

end ZilkerSdk.Device.PatternWrite

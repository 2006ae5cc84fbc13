import ZilkerSdk.Lib.Xml
import ZilkerSdk.Util.StringUtils

/-!
# The latest firmware of a descriptor

Model of the part of `parseDescriptorBase` in `libs/device/descriptors/c/src/parser.c` that reads
the `latestFirmware` element.  The loop over its children looks at all nodes, also at the texts
between elements, and assigns the checksum for each of them: a node without the attribute makes it
NULL.
-/

namespace ZilkerSdk.Descriptors

open Lib Types Util List

/-! ## The parser -/

inductive DeviceDescriptorType where
  | zigbee
  | camera

inductive DeviceFirmwareType where
  | unknown
  | zigbeeOta
  | zigbeeLegacy
  | camera
deriving DecidableEq

/-- `DeviceFirmware`; a list of filenames that was not made is empty. -/
structure DeviceFirmware where
  version : Option CString
  filenames : List CString
  checksum : Option CString
  type : DeviceFirmwareType
deriving DecidableEq

def getTrimmedXmlNodeContentsAsString (node : XmlNode) : CString := trimString node.content

/-- The type that a `type` element names, if it is known. -/
def firmwareType (node : XmlNode) : Option DeviceFirmwareType :=
  if equalIgnoringCase node.content "ota".toList then some .zigbeeOta
  else if equalIgnoringCase node.content "legacy".toList then some .zigbeeLegacy
  else none

/-- The branches of the loop that look at the name of a node. -/
def readNamed (firmware : DeviceFirmware) (node : XmlNode) : DeviceFirmware :=
  if node.name = "version".toList then
    { firmware with version := some (getTrimmedXmlNodeContentsAsString node) }
  else if node.name = "filename".toList then
    { firmware with filenames := firmware.filenames ++ [getTrimmedXmlNodeContentsAsString node] }
  else if node.name = "type".toList then
    { firmware with type := (firmwareType node).getD firmware.type }
  else firmware

/-- One turn of the loop. -/
def readFirmwareNode (firmware : DeviceFirmware) (node : XmlNode) : DeviceFirmware :=
  { readNamed firmware node with checksum := node.getProp "checksum".toList }

def defaultFirmwareType : DeviceDescriptorType → DeviceFirmwareType
  | .camera => .camera
  | .zigbee => .unknown

def parseLatestFirmware (descriptorType : DeviceDescriptorType) (node : XmlNode) : DeviceFirmware :=
  node.children.foldl readFirmwareNode ⟨none, [], none, defaultFirmwareType descriptorType⟩

/-- The field `latestFirmware` after `parseDescriptorBase`. -/
def parseDescriptorBase (descriptorType : DeviceDescriptorType) (ddNode : XmlNode) :
    Option DeviceFirmware :=
  ddNode.childElements.foldl (fun latestFirmware node =>
    if node.name = "latestFirmware".toList then some (parseLatestFirmware descriptorType node)
    else latestFirmware) none

/-! ## What an element says -/

/-- The children with a name. -/
def named (name : String) (nodes : List XmlNode) : List XmlNode :=
  nodes.filter fun node => node.name = name.toList

/-- The firmware has what the nodes say, and this checksum. -/
structure Survives (descriptorType : DeviceDescriptorType) (nodes : List XmlNode)
    (checksum : CString) (firmware : DeviceFirmware) : Prop where
  filenames : firmware.filenames = (named "filename" nodes).map getTrimmedXmlNodeContentsAsString
  version :
    firmware.version = (named "version" nodes).getLast?.map getTrimmedXmlNodeContentsAsString
  type : firmware.type =
    ((named "type" nodes).filterMap firmwareType).getLast?.getD (defaultFirmwareType descriptorType)
  checksum : firmware.checksum = some checksum

/-- A name has one branch only. -/
theorem readNamed_fields (firmware : DeviceFirmware) (node : XmlNode) :
    (readNamed firmware node).filenames = firmware.filenames ++
        (named "filename" [node]).map getTrimmedXmlNodeContentsAsString ∧
      (readNamed firmware node).version =
        ((named "version" [node]).map getTrimmedXmlNodeContentsAsString).getLast?.or
          firmware.version ∧
      (readNamed firmware node).type =
        ((named "type" [node]).filterMap firmwareType).getLast?.getD firmware.type := by
  unfold readNamed named
  by_cases hversion : node.name = "version".toList
  · simp [hversion]
  by_cases hfilename : node.name = "filename".toList
  · simp [hfilename]
  by_cases htype : node.name = "type".toList
  · cases hknown : firmwareType node <;> simp [htype, hknown]
  · simp_all

/-- The loop, with the nodes that have been read. -/
theorem parseLatestFirmware_fields (descriptorType : DeviceDescriptorType) (name : CString)
    (attributes : List (CString × CString)) (nodes : List XmlNode) :
    let firmware := parseLatestFirmware descriptorType (.element name attributes nodes)
    firmware.filenames = (named "filename" nodes).map getTrimmedXmlNodeContentsAsString ∧
      firmware.version = (named "version" nodes).getLast?.map getTrimmedXmlNodeContentsAsString ∧
      firmware.type = ((named "type" nodes).filterMap firmwareType).getLast?.getD
        (defaultFirmwareType descriptorType) ∧
      firmware.checksum = nodes.getLast?.bind fun node => node.getProp "checksum".toList := by
  unfold parseLatestFirmware XmlNode.children
  induction nodes using reverseRecOn with
  | nil => exact ⟨rfl, rfl, rfl, rfl⟩
  | append_singleton nodes node ih =>
    obtain ⟨hfilenames, hversion, htype, -⟩ := ih
    obtain ⟨hfilename', hversion', htype'⟩ := readNamed_fields
      (nodes.foldl readFirmwareNode ⟨none, [], none, defaultFirmwareType descriptorType⟩) node
    simp only [foldl_append, foldl_cons, foldl_nil, readFirmwareNode, hfilename',
      hversion', htype', hfilenames, hversion, htype, named, filter_append, map_append,
      filterMap_append, getLast?_append, getLast?_map, getLast?_singleton]
    refine ⟨trivial, ?_, ?_, rfl⟩
    · cases (filter (fun node => node.name = "version".toList) [node]).getLast? <;> rfl
    · cases (filterMap firmwareType
        (filter (fun node => node.name = "type".toList) [node])).getLast? <;> rfl

/-- The children of an element of which one filename has a checksum. -/
structure FirmwareNodes where
  before : List XmlNode
  filename : XmlNode
  after : List XmlNode
  checksum : CString
  isFilename : filename.name = "filename".toList
  carries : filename.getProp "checksum".toList = some checksum
  others : ∀ node ∈ before ++ after, node.name = "filename".toList →
    node.getProp "checksum".toList = none

def FirmwareNodes.nodes (n : FirmwareNodes) : List XmlNode := n.before ++ n.filename :: n.after

/-- The last element of a name counts. -/
theorem parseDescriptorBase_eq (descriptorType : DeviceDescriptorType) (ddNode : XmlNode) :
    parseDescriptorBase descriptorType ddNode =
      (named "latestFirmware" ddNode.childElements).getLast?.map
        (parseLatestFirmware descriptorType) := by
  unfold parseDescriptorBase named
  generalize "latestFirmware".toList = name
  induction ddNode.childElements using reverseRecOn with
  | nil => rfl
  | append_singleton nodes node ih =>
    rw [foldl_append, foldl_cons, foldl_nil, filter_append, ih]
    by_cases hname : node.name = name <;> simp [hname]

/-- The checksum survives if no node follows its filename, or if the last one that does has the same
checksum again.  Everything else survives anyway. -/
theorem checksum_survives_iff (descriptorType : DeviceDescriptorType) (ddNode : XmlNode)
    (attributes : List (CString × CString)) (n : FirmwareNodes)
    (h : (named "latestFirmware" ddNode.childElements).getLast? =
      some (.element "latestFirmware".toList attributes n.nodes)) :
    (∃ firmware, parseDescriptorBase descriptorType ddNode = some firmware ∧
      Survives descriptorType n.nodes n.checksum firmware) ↔
      ∀ node ∈ n.after.getLast?, node.getProp "checksum".toList = some n.checksum := by
  obtain ⟨hfilenames, hversion, htype, hchecksum⟩ :=
    parseLatestFirmware_fields descriptorType "latestFirmware".toList attributes n.nodes
  have hlast : (n.nodes.getLast?.bind fun node => node.getProp "checksum".toList) =
      some n.checksum ↔ ∀ node ∈ n.after.getLast?, node.getProp "checksum".toList =
        some n.checksum := by
    rw [FirmwareNodes.nodes, getLast?_append, getLast?_cons]
    cases n.after.getLast? with
    | none => simpa using n.carries
    | some node => simp
  rw [parseDescriptorBase_eq, h, ← hlast, ← hchecksum]
  constructor
  · rintro ⟨_, heq, hsurvives⟩
    rw [Option.some.inj heq]
    exact hsurvives.checksum
  · intro hsame
    exact ⟨_, rfl, hfilenames, hversion, htype, hsame⟩

/-- A filename with a checksum, and what stands behind it. -/
def checkedFile (after : List XmlNode)
    (h : ∀ node ∈ after, node.name = "filename".toList → node.getProp "checksum".toList = none) :
    FirmwareNodes where
  before := []
  filename :=
    .element "filename".toList [("checksum".toList, "c0ffee".toList)] [.text "fw.bin".toList]
  after := after
  checksum := "c0ffee".toList
  isFilename := rfl
  carries := by decide
  others := h

/-- A descriptor with such an element. -/
def checkedDescriptor (n : FirmwareNodes) : XmlNode :=
  .element "descriptor".toList [] [.element "latestFirmware".toList [] n.nodes]

theorem checksum_survives_iff_at_end :
    let n := checkedFile [] (forall_mem_nil _)
    ∃ firmware, parseDescriptorBase .zigbee (checkedDescriptor n) = some firmware ∧
      Survives .zigbee n.nodes "c0ffee".toList firmware :=
  (checksum_survives_iff .zigbee (checkedDescriptor (checkedFile [] (forall_mem_nil _))) []
    (checkedFile [] (forall_mem_nil _)) rfl).mpr fun node hnode =>
      absurd hnode (Option.not_mem_none node)

/-- The element ends with a line break, as it does in a file with one element per line. -/
theorem checksum_lost :
    let n := checkedFile [.text ['\n']] (List.forall_mem_singleton.mpr fun _ => rfl)
    parseDescriptorBase .zigbee (checkedDescriptor n) =
      some ⟨none, ["fw.bin".toList], none, .unknown⟩ := by
  decide +kernel

end ZilkerSdk.Descriptors

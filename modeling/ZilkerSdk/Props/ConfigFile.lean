import ZilkerSdk.Config.BackupUtils
import ZilkerSdk.Lib.Xml
import ZilkerSdk.Props.Model
import ZilkerSdk.Util.StringUtils

/-!
# The file of the properties

Model of `readConfigFile` and `writeConfigFile` in `services/props/core/src/properties.c`, with the
functions of `libs/xml/c/src/xmlHelper.c` that they use.

* libxml2 is taken to be faithful: a document that was written whole is parsed to the same tree, but
  for the blank texts of the indentation.  A text that is empty or NULL makes an element without
  children.
* A file is empty, not well formed, or has a document.
* The map is written in the order in which the hash map iterates, which depends on a seed: it is
  some function of the map that gives its items in some order.
* What the system calls do is an input.  `written` is a history variable: the last call of
  `writeConfigFile` put its whole file in place.
* The task that informs the backup service of a new file is not modelled.
-/

namespace ZilkerSdk.Props

open Lib Types Util Config List

/-! ## Helpers for XML -/

def getXmlNodeContentsAsInt (node : XmlNode) (defValue : Int) : Int :=
  (stringToInt32 node.content).getD defValue

def getXmlNodeContentsAsUnsignedLongLong (node : XmlNode) (defValue : Nat) : Nat :=
  (stringToUint64 node.content).getD defValue

def getXmlNodeAttributeAsInt (node : XmlNode) (attributeName : CString) (defValue : Int) : Int :=
  match node.getProp attributeName with
  | some contents => (stringToInt32 contents).getD defValue
  | none => defValue

/-! ## Files and the state of the service -/

inductive ConfigFile where
  | empty
  | malformed
  | document (root : XmlNode)

def ConfigFile.isEmpty : ConfigFile → Bool
  | empty => true
  | _ => false

/-- The order in which a process iterates over its map. -/
structure IterationOrder where
  list : PropertyMap → List (Key × Property)
  perm : ∀ m, (list m).Perm m.map.items

/-- What the system calls of `writeConfigFile` do; `cut` is what is in the file when it could not be
written whole. -/
structure WriteCalls where
  openTemp : Bool
  cut : Option ConfigFile
  save : SaveCalls

/-- Iteration in the order in which the properties were put. -/
def IterationOrder.byPut : IterationOrder := ⟨fun m => m.map.items, fun _ => .refl _⟩

def WriteCalls.work : WriteCalls := ⟨true, none, true, true, true⟩

structure PropsState where
  propertyMap : PropertyMap
  confVersion : UInt64
  files : Files ConfigFile
  written : Bool

/-! ## Writing -/

def currSchemaVer : Int := 1

/-- `<property>` -/
def propertyNode (prop : Property) : XmlNode :=
  .element "property".toList []
    [.leaf "key".toList prop.key,
      .leaf "value".toList (prop.value.getD []),
      .leaf "src".toList (decimalInt prop.source.toInt)]

/-- The document that `writeConfigFile` builds. -/
def configDocument (order : IterationOrder) (m : PropertyMap) (confVersion : UInt64) : XmlNode :=
  .element "properties".toList [("schema".toList, decimalInt currSchemaVer)]
    (.leaf "version".toList (decimal confVersion.toNat) ::
      (order.list m).map fun item => propertyNode item.2)

/-- The indentation of `xmlDocDumpFormatMemory`. -/
def indentation (depth : Nat) : CString := '\n' :: List.replicate (2 * depth) ' '

/-- The file with the document. -/
def configFile (order : IterationOrder) (m : PropertyMap) (confVersion : UInt64) : ConfigFile :=
  .document (.formatted indentation 0 (configDocument order m confVersion))

/-- `writeConfigFile`: the version grows even if the file cannot be opened. -/
def writeConfigFile (order : IterationOrder) (calls : WriteCalls) (s : PropsState) :
    PropsState × Bool :=
  let confVersion := s.confVersion + 1
  let file := configFile order s.propertyMap confVersion
  if !calls.openTemp then ({ s with confVersion := confVersion, written := false }, false)
  else
    let files := safeFileSave calls.save { s.files with temp := some (calls.cut.getD file) }
    ({ s with
        confVersion := confVersion
        files := files
        written := calls.cut.isNone && calls.save.renameTemp }, true)

/-! ## Reading -/

/-- One child of a `<property>`: the last one of a name counts. -/
def readField (save : PropertyInput) (node : XmlNode) : PropertyInput :=
  if node.name = "key".toList then { save with key := some node.content }
  else if node.name = "value".toList then { save with value := some node.content }
  else if node.name = "src".toList then
    { save with source := BitVec.ofInt 32 (getXmlNodeContentsAsInt node 0) }
  else save

def readProperty (node : XmlNode) : PropertyInput :=
  node.childElements.foldl readField ⟨none, none, .default⟩

/-- A property is kept if it has a key and a value that are not empty. -/
def complete? : PropertyInput → Option Property
  | ⟨some key, some value, source⟩ =>
    if key ≠ [] ∧ value ≠ [] then some ⟨key, some value, source⟩ else none
  | _ => none

/-- One child of the root. -/
def readNode (s : PropertyMap × UInt64) (node : XmlNode) : PropertyMap × UInt64 :=
  if node.name = "version".toList then
    (s.1, UInt64.ofNat (getXmlNodeContentsAsUnsignedLongLong node 0))
  else if node.name = "property".toList then
    match complete? (readProperty node) with
    | some prop => (s.1.put prop, s.2)
    | none => s
  else s

/-- `migrateFromSchemaZero`: was there a property to alter? -/
def migrateFromSchemaZero (m : PropertyMap) : PropertyMap × Bool :=
  (m.resetSources .default, !m.map.items.isEmpty)

def readConfigFile (order : IterationOrder) (calls : WriteCalls) (file : ConfigFile)
    (s : PropsState) : PropsState × Bool :=
  match file with
  | .empty | .malformed => (s, false)
  | .document root =>
    let schemaVersion := getXmlNodeAttributeAsInt root "schema".toList 0
    let read := root.childElements.foldl readNode (s.propertyMap, s.confVersion)
    let s := { s with propertyMap := read.1, confVersion := read.2 }
    if schemaVersion ≠ currSchemaVer ∧ schemaVersion = 0 then
      let migrated := migrateFromSchemaZero s.propertyMap
      let s := { s with propertyMap := migrated.1 }
      if migrated.2 then ((writeConfigFile order calls s).1, true) else (s, true)
    else (s, true)

/-! ## What was written is read back -/

/-- A property that is not skipped by the reader. -/
def Property.Complete (prop : Property) : Prop := prop.key ≠ [] ∧ prop.value.getD [] ≠ []

instance (prop : Property) : Decidable prop.Complete := inferInstanceAs (Decidable (_ ∧ _))

theorem formatted_propertyNode (prop : Property) (depth : Nat) :
    (XmlNode.formatted indentation depth (propertyNode prop)).childElements =
      [.leaf "key".toList prop.key, .leaf "value".toList (prop.value.getD []),
        .leaf "src".toList (decimalInt prop.source.toInt)] := by
  have hchildren : (propertyNode prop).childElements =
      [.leaf "key".toList prop.key, .leaf "value".toList (prop.value.getD []),
        .leaf "src".toList (decimalInt prop.source.toInt)] := rfl
  rw [XmlNode.childElements_formatted indentation depth (by rfl), hchildren]
  simp only [map_cons, map_nil, XmlNode.formatted_leaf]

theorem ofInt_source (source : PropSource) :
    BitVec.ofInt 32 ((stringToInt32 (decimalInt source.toInt)).getD 0) = source := by
  have hlow : -2 ^ 31 ≤ source.toInt := BitVec.le_toInt source
  have hhigh : source.toInt < 2 ^ 31 := BitVec.toInt_lt
  rw [stringToInt32_decimalInt hlow hhigh, Option.getD_some, BitVec.ofInt_toInt]

/-- A property is read as it was written, if it is complete. -/
theorem complete?_propertyNode (prop : Property) (depth : Nat) :
    complete? (readProperty (XmlNode.formatted indentation depth (propertyNode prop))) =
      if prop.Complete then some prop else none := by
  have hread : readProperty (XmlNode.formatted indentation depth (propertyNode prop)) =
      ⟨some prop.key, some (prop.value.getD []), prop.source⟩ := by
    rw [readProperty, formatted_propertyNode]
    simp [readField, getXmlNodeContentsAsInt, ofInt_source]
  obtain ⟨key, value, source⟩ := prop
  rw [hread, complete?]
  cases value with
  | none => simp [Property.Complete]
  | some value => exact if_congr Iff.rfl rfl rfl

/-! ## The whole map -/

/-- What the reader makes of the properties of a file, one after the other. -/
def keepComplete (m : PropertyMap) (prop : Property) : PropertyMap :=
  if prop.Complete then m.put prop else m

theorem readNode_propertyNode (s : PropertyMap × UInt64) (prop : Property) (depth : Nat) :
    readNode s (XmlNode.formatted indentation depth (propertyNode prop)) =
      (keepComplete s.1 prop, s.2) := by
  have hname : (propertyNode prop).name = "property".toList := rfl
  rw [readNode, XmlNode.name_formatted, hname, if_neg (by decide), if_pos rfl,
    complete?_propertyNode, keepComplete]
  by_cases h : prop.Complete
  · simp only [if_pos h]
  · simp only [if_neg h]

theorem foldl_readNode (props : List Property) (s : PropertyMap × UInt64) (depth : Nat) :
    (props.map fun prop => XmlNode.formatted indentation depth (propertyNode prop)).foldl
        readNode s =
      (props.foldl keepComplete s.1, s.2) := by
  induction props generalizing s with
  | nil => rfl
  | cons prop props ih => rw [map_cons, foldl_cons, readNode_propertyNode, ih,
      foldl_cons]

theorem childElements_configDocument (order : IterationOrder) (m : PropertyMap)
    (confVersion : UInt64) :
    (configDocument order m confVersion).childElements =
      .leaf "version".toList (decimal confVersion.toNat) ::
        (order.list m).map fun item => propertyNode item.2 := by
  apply filter_eq_self.mpr
  intro node hnode
  rcases mem_cons.mp hnode with rfl | hnode
  · rfl
  · obtain ⟨item, -, rfl⟩ := mem_map.mp hnode
    rfl

theorem any_isText_configDocument (order : IterationOrder) (m : PropertyMap)
    (confVersion : UInt64) :
    (configDocument order m confVersion).children.any XmlNode.isText = false := by
  apply any_eq_false.mpr
  intro node hnode
  rcases mem_cons.mp hnode with rfl | hnode
  · simp
  · obtain ⟨item, -, rfl⟩ := mem_map.mp hnode
    simp [propertyNode, XmlNode.isText]

/-- The map that is read from a file with these properties. -/
def readBack (props : List (Key × Property)) : PropertyMap :=
  (props.map Prod.snd).foldl keepComplete .create

theorem readConfigFile_configFile (order order' : IterationOrder) (calls : WriteCalls)
    (m : PropertyMap) (confVersion : UInt64) (s : PropsState) (hempty : s.propertyMap = .create) :
    readConfigFile order' calls (configFile order m confVersion) s =
      ({ s with propertyMap := readBack (order.list m), confVersion := confVersion }, true) := by
  have hschema : getXmlNodeAttributeAsInt
      (XmlNode.formatted indentation 0 (configDocument order m confVersion)) "schema".toList 0 =
        currSchemaVer := by
    rw [getXmlNodeAttributeAsInt, XmlNode.getProp_formatted]
    have hprop : (configDocument order m confVersion).getProp "schema".toList =
        some (decimalInt currSchemaVer) := rfl
    simp only [hprop, stringToInt32_decimalInt (i := currSchemaVer) (by decide) (by decide),
      Option.getD_some]
  have hversion : UInt64.ofNat (getXmlNodeContentsAsUnsignedLongLong
      (XmlNode.leaf "version".toList (decimal confVersion.toNat)) 0) = confVersion := by
    rw [getXmlNodeContentsAsUnsignedLongLong, XmlNode.content_leaf,
      stringToUint64_decimal confVersion.toNat_lt, Option.getD_some, UInt64.ofNat_toNat]
  -- the version comes first, and the indentation is no element
  have hread : (XmlNode.formatted indentation 0 (configDocument order m confVersion)
      ).childElements.foldl readNode (s.propertyMap, s.confVersion) =
        (readBack (order.list m), confVersion) := by
    rw [XmlNode.childElements_formatted _ _ (any_isText_configDocument order m confVersion),
      childElements_configDocument, map_cons, XmlNode.formatted_leaf, foldl_cons,
      map_map, hempty]
    have hfirst : readNode (.create, s.confVersion)
        (XmlNode.leaf "version".toList (decimal confVersion.toNat)) = (.create, confVersion) := by
      rw [readNode, XmlNode.name_leaf, if_pos rfl, hversion]
    rw [hfirst, readBack, ← foldl_readNode _ (.create, confVersion) 1, map_map]
    rfl
  simp only [readConfigFile, configFile, hschema, hread, ne_eq, not_true_eq_false, false_and,
    if_false]

variable {m : PropertyMap}

theorem items_keepComplete {prop : Property} (hfree : m.get (textKey prop.key) = none) :
    (keepComplete m prop).map.items =
      m.map.items ++ if prop.Complete then [(textKey prop.key, prop)] else [] := by
  unfold keepComplete
  split
  · exact items_put_of_free prop hfree
  · exact (append_nil _).symm

theorem items_foldl_keepComplete {props : List (Key × Property)}
    (hkeyed : ∀ item ∈ props, item.1 = textKey item.2.key)
    (hnodup : ((m.map.items ++ props).map Prod.fst).Nodup) :
    ((props.map Prod.snd).foldl keepComplete m).map.items =
      m.map.items ++ props.filter fun item => item.2.Complete := by
  induction props generalizing m with
  | nil => simp
  | cons item props ih =>
    obtain ⟨k, prop⟩ := item
    have hk : k = textKey prop.key := hkeyed (k, prop) mem_cons_self
    -- the keys are distinct, so the property is not in the map yet
    have hfree : m.get (textKey prop.key) = none := by
      apply hashMapGet_eq_none_iff.mpr
      rw [map_append, map_cons, nodup_middle, nodup_cons] at hnodup
      exact fun hmem => hnodup.1 (mem_append_left _ (hk ▸ hmem))
    have hitems := items_keepComplete hfree
    have hrest : (((keepComplete m prop).map.items ++ props).map Prod.fst).Nodup := by
      rw [hitems]
      refine hnodup.sublist (List.Sublist.map _ ?_)
      rw [append_assoc]
      refine List.Sublist.append_left ?_ _
      split
      · rw [hk]
        exact List.Sublist.refl _
      · exact sublist_cons_self _ _
    rw [map_cons, foldl_cons,
      ih (fun item hitem => hkeyed item (mem_cons_of_mem _ hitem)) hrest, hitems,
      append_assoc, filter_cons]
    by_cases hcomplete : prop.Complete
    · simp [hcomplete, hk]
    · simp [hcomplete]

/-- Of the properties in a file, those with a key and a value are read back. -/
theorem mem_readBack_iff (order : IterationOrder) (m : PropertyMap) (item : Key × Property) :
    item ∈ (readBack (order.list m)).map.items ↔ item ∈ m.map.items ∧ item.2.Complete := by
  have hperm := order.perm m
  have hkeyed : ∀ item ∈ order.list m, item.1 = textKey item.2.key := fun item hitem =>
    m.keyed item (hperm.mem_iff.mp hitem)
  have hnodup : (((PropertyMap.create).map.items ++ order.list m).map Prod.fst).Nodup := by
    exact (hperm.map Prod.fst).nodup_iff.mpr m.map.nodupKeys
  rw [readBack, items_foldl_keepComplete hkeyed hnodup]
  show item ∈ [] ++ _ ↔ _
  rw [nil_append, mem_filter, hperm.mem_iff, decide_eq_true_iff]

theorem get_readBack (order : IterationOrder) (m : PropertyMap) (k : Key) :
    (readBack (order.list m)).get k = (m.get k).filter fun prop => prop.Complete := by
  apply Option.ext
  intro prop
  rw [Option.filter_eq_some_iff, decide_eq_true_iff]
  show hashMapGet _ k = some prop ↔ hashMapGet _ k = some prop ∧ _
  rw [← mem_items_iff, ← mem_items_iff, mem_readBack_iff]

end ZilkerSdk.Props

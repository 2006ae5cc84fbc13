import ZilkerSdk.Types.HashMap

/-!
# The properties in memory

Model of the property map of `services/props/core/src/properties.c` and of
`setPropertyWhenLocked`, through which all changes but deletions are made.

* The key of an item is its text with the length that `(uint16_t)strlen` gives, so the map finds a
  property by at most 65535 characters of its key.
* The source of a property is an enum without negative values, which gcc and clang make an
  `unsigned int`.  It is kept as its bits: requests and files can hold any number.
* The events are returned in the order in which they are broadcast.
* The part of `ensureDefaults` for boxes with a screen (`CONFIG_CAP_SCREEN`) is left out.
-/

namespace ZilkerSdk.Props

open Types

/-! ## Properties -/

/-- `propSource`: larger is higher priority. -/
abbrev PropSource := BitVec 32

def PropSource.default : PropSource := 0
def PropSource.server : PropSource := 1
def PropSource.xconf : PropSource := 2
def PropSource.device : PropSource := 3

/-- A `property` as the map holds it; its value may be NULL. -/
structure Property where
  key : CString
  value : Option CString
  source : PropSource
deriving DecidableEq

/-- A `property` as it is decoded or parsed: both texts may be NULL. -/
structure PropertyInput where
  key : Option CString
  value : Option CString
  source : PropSource
deriving DecidableEq

/-- The key made by `(s, (uint16_t)strlen(s))`. -/
def textKey (s : CString) : Key := s.take (s.length % 2 ^ 16)

/-! ## The map -/

/-- `propertyMap`: every property is found under its own key. -/
structure PropertyMap where
  map : IcHashMap Key Property
  keyed : ∀ item ∈ map.items, item.1 = textKey item.2.key

namespace PropertyMap

def create : PropertyMap := ⟨hashMapCreate, by simp [hashMapCreate]⟩

def get (m : PropertyMap) (k : Key) : Option Property := hashMapGet m.map k

/-- `hashMapPut` of a property. -/
def put (m : PropertyMap) (prop : Property) : PropertyMap :=
  ⟨(hashMapPut m.map (textKey prop.key) prop).1, by
    cases hget : hashMapGet m.map (textKey prop.key) with
    | some old =>
      rw [hashMapPut_of_taken hget]
      exact m.keyed
    | none =>
      rw [items_put_of_free prop hget]
      intro item hitem
      rcases List.mem_append.mp hitem with hitem | hitem
      · exact m.keyed item hitem
      · rw [List.mem_singleton.mp hitem]⟩

/-- Value and source are written into the property that the map holds. -/
def assign (m : PropertyMap) (prop : Property) : PropertyMap :=
  ⟨hashMapModify m.map (textKey prop.key) fun old =>
      { old with value := prop.value, source := prop.source }, by
    intro item hitem
    obtain ⟨old, hold, rfl⟩ := List.mem_map.mp hitem
    have hkey := m.keyed old hold
    split
    · exact hkey
    · exact hkey⟩

def delete (m : PropertyMap) (key : CString) : PropertyMap × Bool :=
  (⟨(hashMapDelete m.map (textKey key)).1, by
    rw [items_delete]
    exact fun item hitem => m.keyed item (List.mem_of_mem_filter hitem)⟩,
    (hashMapDelete m.map (textKey key)).2)

/-- All properties get this source. -/
def resetSources (m : PropertyMap) (source : PropSource) : PropertyMap :=
  ⟨hashMapModifyAll m.map fun prop => { prop with source := source }, by
    intro item hitem
    obtain ⟨old, hold, rfl⟩ := List.mem_map.mp hitem
    exact m.keyed old hold⟩

section

variable {m : PropertyMap} {prop : Property}

theorem get_put (hfree : m.get (textKey prop.key) = none) (k : Key) :
    (m.put prop).get k = if k = textKey prop.key then some prop else m.get k :=
  hashMapGet_put hfree k

theorem get_assign (m : PropertyMap) (prop : Property) (k : Key) :
    (m.assign prop).get k =
      if k = textKey prop.key then
        (m.get k).map fun old => { old with value := prop.value, source := prop.source }
      else m.get k :=
  hashMapGet_modify m.map _ _ k

end

end PropertyMap

/-! ## Events -/

inductive EventValue where
  | added
  | deleted
  | updated
deriving DecidableEq

structure PropertyEvent where
  eventValue : EventValue
  propKey : CString
  propValue : Option CString
  overallPropsVersion : UInt64
  source : PropSource
deriving DecidableEq

/-! ## Setting a property -/

inductive SetPropRc where
  | new
  | overwrite
  | failed
  | dropped
deriving DecidableEq

def getPropertyWhenLocked (m : PropertyMap) (key : CString) : Option Property := m.get (textKey key)

/-- A new value and source take the place of the old ones. -/
def Replaces (overwrite : Bool) (prop old : Property) : Prop :=
  overwrite = true ∨ prop.source > old.source ∨
    (prop.source = old.source ∧ prop.value ≠ old.value)

instance (overwrite : Bool) (prop old : Property) : Decidable (Replaces overwrite prop old) :=
  inferInstanceAs (Decidable (_ ∨ _))

structure SetResult where
  map : PropertyMap
  rc : SetPropRc
  events : List PropertyEvent

/-- `broadcastPropertyEvent` about a property that is set, with the version that the file will
have. -/
def propertyEvents (sendEvent : Bool) (value : EventValue) (confVersion : UInt64)
    (prop : Property) : List PropertyEvent :=
  if sendEvent then [⟨value, prop.key, prop.value, confVersion + 1, prop.source⟩] else []

/-- `setPropertyWhenLocked`, in a service whose file has this version. -/
def setPropertyWhenLocked (m : PropertyMap) (confVersion : UInt64) (prop : Property)
    (sendEvent overwrite : Bool) : SetResult :=
  match getPropertyWhenLocked m prop.key with
  | some old =>
    if Replaces overwrite prop old then
      ⟨m.assign prop, .overwrite, propertyEvents sendEvent .updated confVersion prop⟩
    else ⟨m, .dropped, []⟩
  | none => ⟨m.put prop, .new, propertyEvents sendEvent .added confVersion prop⟩

section

variable (m : PropertyMap) (confVersion : UInt64) (prop : Property) (sendEvent overwrite : Bool)

/-- Under each key there is the property that was there, or one with the new value and source. -/
theorem get_setPropertyWhenLocked (k : Key) :
    (setPropertyWhenLocked m confVersion prop sendEvent overwrite).map.get k = m.get k ∨
      k = textKey prop.key ∧
        ∃ new, (setPropertyWhenLocked m confVersion prop sendEvent overwrite).map.get k = some new ∧
          new.value = prop.value ∧ new.source = prop.source := by
  unfold setPropertyWhenLocked
  split
  · rename_i old hget
    split
    · by_cases hk : k = textKey prop.key
      · subst hk
        refine .inr ⟨rfl, { old with value := prop.value, source := prop.source }, ?_, rfl, rfl⟩
        rw [PropertyMap.get_assign, if_pos rfl]
        exact congrArg (Option.map _) hget
      · left
        rw [PropertyMap.get_assign, if_neg hk]
    · exact .inl rfl
  · rename_i hget
    by_cases hk : k = textKey prop.key
    · refine .inr ⟨hk, prop, ?_, rfl, rfl⟩
      rw [PropertyMap.get_put hget, if_pos hk]
    · left
      rw [PropertyMap.get_put hget, if_neg hk]

theorem isSome_get_setPropertyWhenLocked {k : Key} (h : (m.get k).isSome) :
    ((setPropertyWhenLocked m confVersion prop sendEvent overwrite).map.get k).isSome := by
  rcases get_setPropertyWhenLocked m confVersion prop sendEvent overwrite k with
    hsame | ⟨-, new, hnew, -⟩
  · rwa [hsame]
  · rw [hnew]
    rfl

theorem isSome_get_self :
    ((setPropertyWhenLocked m confVersion prop sendEvent overwrite).map.get
      (textKey prop.key)).isSome := by
  cases hget : m.get (textKey prop.key) with
  | some old =>
    apply isSome_get_setPropertyWhenLocked
    rw [hget]
    rfl
  | none =>
    have hnone : getPropertyWhenLocked m prop.key = none := hget
    simp only [setPropertyWhenLocked, hnone, PropertyMap.get_put hget, if_true]
    rfl

end

/-! ## Defaults -/

def defaultProperties : List (CString × CString) :=
  [("IC_DYNAMIC_DIR".toList, "/opt".toList),
    ("IC_STATIC_DIR".toList, "/vendor".toList),
    ("camera.fw.update.delay.seconds".toList, "0".toList),
    ("config.fastbackuptimer.flag".toList, "false".toList),
    ("discover.disabled.devices.flag".toList, "false".toList),
    ("camera.noupgrade.flag".toList, "false".toList),
    ("telemetry.fast.upload.timer.flag".toList, "false".toList),
    ("zigbee.fw.upgrade.nodelay.flag".toList, "false".toList),
    ("cpe.zigbee.panIdConflict.enabled".toList, "false".toList),
    ("cpe.blacklistedDevices".toList, "".toList),
    ("xconf.telemetry.max.roll.size".toList, "200000".toList)]

/-- A property is set if there is none with its key; the result tells whether one was missing, now
or before. -/
def setIfMissing (confVersion : UInt64) (state : PropertyMap × Bool) (prop : Property) :
    PropertyMap × Bool :=
  match getPropertyWhenLocked state.1 prop.key with
  | none => ((setPropertyWhenLocked state.1 confVersion prop false false).map, true)
  | some _ => state

/-- The properties that `ensureDefaults` creates. -/
def defaultProperty (pair : CString × CString) : Property := ⟨pair.1, some pair.2, .default⟩

/-- `ensureDefaults`; the flag tells whether something was set, now or before. -/
def ensureDefaults (confVersion : UInt64) (state : PropertyMap × Bool) : PropertyMap × Bool :=
  (defaultProperties.map defaultProperty).foldl (setIfMissing confVersion) state

def PropertyMap.Has (m : PropertyMap) (key : CString) : Prop := (getPropertyWhenLocked m key).isSome

section

variable {confVersion : UInt64} {state : PropertyMap × Bool} {prop : Property}
  {props : List Property}

theorem setIfMissing_of_has (h : state.1.Has prop.key) :
    setIfMissing confVersion state prop = state := by
  obtain ⟨old, hold⟩ := Option.isSome_iff_exists.mp h
  rw [setIfMissing, hold]

theorem has_setIfMissing_self : (setIfMissing confVersion state prop).1.Has prop.key := by
  unfold setIfMissing
  split
  · exact isSome_get_self _ _ _ _ _
  · rename_i old hold
    exact Option.isSome_iff_exists.mpr ⟨old, hold⟩

theorem has_setIfMissing {key : CString} (h : state.1.Has key) :
    (setIfMissing confVersion state prop).1.Has key := by
  unfold setIfMissing
  split
  · exact isSome_get_setPropertyWhenLocked _ _ _ _ _ h
  · exact h

theorem foldl_setIfMissing_snd (h : state.2 = true) :
    (props.foldl (setIfMissing confVersion) state).2 = true := by
  induction props generalizing state with
  | nil => exact h
  | cons prop props ih =>
    apply ih
    unfold setIfMissing
    split
    · rfl
    · exact h

theorem has_foldl_setIfMissing {key : CString} (h : state.1.Has key) :
    (props.foldl (setIfMissing confVersion) state).1.Has key := by
  induction props generalizing state with
  | nil => exact h
  | cons prop props ih => exact ih (has_setIfMissing h)

/-- Afterwards all the properties are there. -/
theorem has_of_mem_foldl (state : PropertyMap × Bool) :
    ∀ prop ∈ props, (props.foldl (setIfMissing confVersion) state).1.Has prop.key := by
  induction props generalizing state with
  | nil => exact nofun
  | cons first props ih =>
    intro prop hprop
    rcases List.mem_cons.mp hprop with rfl | hprop
    · rw [List.foldl_cons]
      exact has_foldl_setIfMissing has_setIfMissing_self
    · exact ih _ prop hprop

/-- Nothing happens if nothing is missing. -/
theorem foldl_setIfMissing_of_has (h : ∀ prop ∈ props, state.1.Has prop.key) :
    props.foldl (setIfMissing confVersion) state = state := by
  induction props with
  | nil => rfl
  | cons first props ih =>
    rw [List.foldl_cons, setIfMissing_of_has (h first List.mem_cons_self)]
    exact ih fun prop hprop => h prop (List.mem_cons_of_mem first hprop)

theorem has_of_foldl_setIfMissing (h : (props.foldl (setIfMissing confVersion) state).2 = false) :
    ∀ prop ∈ props, state.1.Has prop.key := by
  induction props generalizing state with
  | nil => exact nofun
  | cons first props ih =>
    have hfirst : state.1.Has first.key := by
      by_contra hmissing
      have hset : (setIfMissing confVersion state first).2 = true := by
        rw [setIfMissing, Option.not_isSome_iff_eq_none.mp hmissing]
      rw [List.foldl_cons, foldl_setIfMissing_snd hset] at h
      cases h
    rw [List.foldl_cons, setIfMissing_of_has hfirst] at h
    exact List.forall_mem_cons.mpr ⟨hfirst, ih h⟩

end

end ZilkerSdk.Props

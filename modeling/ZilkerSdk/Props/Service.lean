import ZilkerSdk.Props.ConfigFile

/-!
# The service of the properties

Model of the functions of `services/props/core/src/properties.c` that the handlers of requests call,
and of `initProperties`.  All of them hold the mutex from the beginning to the end, so a run of the
service is a sequence of calls.

* A group of properties is given in the order in which its hash map is iterated.  An entry of the
  map may be NULL; it is skipped.  A property without a key makes `strlen` read from NULL.
* The files of a process that starts are what the one before it left.
-/

namespace ZilkerSdk.Props

open Lib Types Config

/-! ## Start -/

/-- The arguments of the process, and what happens when it writes its file: after a migration, and
after the defaults were filled in. -/
structure StartArgs where
  configDir : CString
  homeDir : CString
  migrateCalls : WriteCalls
  saveCalls : WriteCalls

/-- The file that `initProperties` reads. -/
def fileToRead (files : Files ConfigFile) : Option ConfigFile :=
  match chooseFileToRead ConfigFile.isEmpty files with
  | .originalFile => files.original
  | .backupFile => files.backup
  | .fileNotPresent => none

/-- The paths that are set from the arguments unless they are set. -/
def pathProperties (args : StartArgs) : List Property :=
  [⟨"IC_DYNAMIC_DIR".toList, some args.configDir, .device⟩,
    ⟨"IC_STATIC_DIR".toList, some args.homeDir, .device⟩]

def initProperties (order : IterationOrder) (args : StartArgs) (files : Files ConfigFile) :
    PropsState :=
  let s : PropsState := ⟨.create, 0, files, false⟩
  let s :=
    match fileToRead files with
    | some file => (readConfigFile order args.migrateCalls file s).1
    | none => s
  let paths := (pathProperties args).foldl (setIfMissing s.confVersion) (s.propertyMap, false)
  let filled := ensureDefaults s.confVersion paths
  let s := { s with propertyMap := filled.1 }
  if filled.2 then (writeConfigFile order args.saveCalls s).1 else s

/-! ## Calls -/

def setProperty (order : IterationOrder) (calls : WriteCalls) (s : PropsState) (prop : Property) :
    PropsState × SetPropRc × List PropertyEvent :=
  let set := setPropertyWhenLocked s.propertyMap s.confVersion prop true false
  let s := { s with propertyMap := set.map }
  if set.rc ≠ .failed ∧ set.rc ≠ .dropped then
    ((writeConfigFile order calls s).1, set.rc, set.events)
  else (s, set.rc, set.events)

def setPropertyOverwrite (order : IterationOrder) (calls : WriteCalls) (s : PropsState)
    (prop : Property) : PropsState × SetPropRc × List PropertyEvent :=
  let set := setPropertyWhenLocked s.propertyMap s.confVersion prop true true
  let s := { s with propertyMap := set.map }
  if set.rc ≠ .failed then ((writeConfigFile order calls s).1, set.rc, set.events)
  else (s, set.rc, set.events)

/-- The loop of `setPropertiesBulk`. -/
structure BulkState where
  map : PropertyMap
  doSave : Bool
  events : List PropertyEvent

/-- One turn of the loop. -/
def setBulkEntry (confVersion : UInt64) (loop : BulkState) :
    Option PropertyInput → Option BulkState
  | none => some loop
  -- `strlen(NULL)`
  | some ⟨none, _, _⟩ => none
  | some ⟨some key, value, source⟩ =>
    let set := setPropertyWhenLocked loop.map confVersion ⟨key, value, source⟩ true false
    some ⟨set.map, loop.doSave || set.rc ≠ .failed, loop.events ++ set.events⟩

/-- `setPropertiesBulk`; the number of entries is counted in 16 bits. -/
def setPropertiesBulk (order : IterationOrder) (calls : WriteCalls) (s : PropsState)
    (group : List (Option PropertyInput)) : Option (PropsState × Bool × List PropertyEvent) :=
  if group.length % 2 ^ 16 = 0 then some (s, false, [])
  else
    (group.foldlM (setBulkEntry s.confVersion) ⟨s.propertyMap, false, []⟩).map fun loop =>
      let s := { s with propertyMap := loop.map }
      (if loop.doSave then (writeConfigFile order calls s).1 else s, true, loop.events)

def deleteProperty (order : IterationOrder) (calls : WriteCalls) (s : PropsState)
    (key : CString) : PropsState × Bool × List PropertyEvent :=
  let deleted := s.propertyMap.delete key
  if deleted.2 then
    let event : PropertyEvent := ⟨.deleted, key, none, s.confVersion + 1, .device⟩
    let filled := ensureDefaults s.confVersion (deleted.1, false)
    ((writeConfigFile order calls { s with propertyMap := filled.1 }).1, true, [event])
  else ({ s with propertyMap := deleted.1 }, false, [])

inductive Call where
  | setProperty (prop : Property)
  | setPropertyOverwrite (prop : Property)
  | setPropertiesBulk (group : List (Option PropertyInput))
  | deleteProperty (key : CString)

/-- What a call returns. -/
inductive Reply where
  | set (rc : SetPropRc) (events : List PropertyEvent)
  | done (worked : Bool) (events : List PropertyEvent)
deriving DecidableEq

/-- One call, and what its system calls do. -/
def step (order : IterationOrder) (s : PropsState) : Call × WriteCalls → Option (PropsState × Reply)
  | (.setProperty prop, calls) =>
    let (s', rc, events) := setProperty order calls s prop
    some (s', .set rc events)
  | (.setPropertyOverwrite prop, calls) =>
    let (s', rc, events) := setPropertyOverwrite order calls s prop
    some (s', .set rc events)
  | (.setPropertiesBulk group, calls) =>
    (setPropertiesBulk order calls s group).map fun (s', worked, events) =>
      (s', .done worked events)
  | (.deleteProperty key, calls) =>
    let (s', worked, events) := deleteProperty order calls s key
    some (s', .done worked events)

/-! ## What a call does to the state -/

/-- A call leaves everything as it is, or writes the file with a map that has the defaults if the
one before it had them. -/
inductive Effect (order : IterationOrder) (s s' : PropsState) : Prop where
  | nothing (h : s' = s)
  | wrote (m : PropertyMap) (calls : WriteCalls)
      (hdefaults : (∀ pair ∈ defaultProperties, s.propertyMap.Has pair.1) →
        ∀ pair ∈ defaultProperties, m.Has pair.1)
      (h : s' = (writeConfigFile order calls { s with propertyMap := m }).1)

section

variable {m : PropertyMap} {confVersion : UInt64} {prop : Property} {sendEvent overwrite : Bool}

theorem rc_ne_failed :
    (setPropertyWhenLocked m confVersion prop sendEvent overwrite).rc ≠ .failed := by
  unfold setPropertyWhenLocked
  split
  · split <;> simp
  · simp

theorem map_of_dropped
    (h : (setPropertyWhenLocked m confVersion prop sendEvent overwrite).rc = .dropped) :
    (setPropertyWhenLocked m confVersion prop sendEvent overwrite).map = m := by
  revert h
  fun_cases setPropertyWhenLocked m confVersion prop sendEvent overwrite <;> rintro ⟨⟩
  rfl

theorem has_setPropertyWhenLocked {key : CString} (h : m.Has key) :
    (setPropertyWhenLocked m confVersion prop sendEvent overwrite).map.Has key :=
  isSome_get_setPropertyWhenLocked _ _ _ _ _ h

end

section

variable {order : IterationOrder} {calls : WriteCalls} {s : PropsState}

theorem setProperty_effect (prop : Property) :
    Effect order s (setProperty order calls s prop).1 := by
  unfold setProperty
  simp only []
  split
  · exact .wrote _ calls (fun h pair hpair => has_setPropertyWhenLocked (h pair hpair)) rfl
  · rename_i hrc
    have hdropped : (setPropertyWhenLocked s.propertyMap s.confVersion prop true false).rc =
        .dropped := by
      by_contra hne
      exact hrc ⟨rc_ne_failed, hne⟩
    apply Effect.nothing
    simp only [map_of_dropped hdropped]

theorem setPropertyOverwrite_effect (prop : Property) :
    Effect order s (setPropertyOverwrite order calls s prop).1 := by
  unfold setPropertyOverwrite
  rw [if_pos rc_ne_failed]
  exact .wrote _ calls (fun h pair hpair => has_setPropertyWhenLocked (h pair hpair)) rfl

/-- The loop over a group keeps all keys, and saves unless it set nothing. -/
structure LoopKeeps (m : PropertyMap) (loop : BulkState) : Prop where
  has : ∀ key, m.Has key → loop.map.Has key
  same : loop.doSave = false → loop.map = m

variable {m : PropertyMap} {confVersion : UInt64} {group : List (Option PropertyInput)}
  {s' : PropsState} {op : Call × WriteCalls} {reply : Reply}

theorem LoopKeeps.entry {loop loop' : BulkState} {entry : Option PropertyInput}
    (h : LoopKeeps m loop) (hentry : setBulkEntry confVersion loop entry = some loop') :
    LoopKeeps m loop' := by
  unfold setBulkEntry at hentry
  split at hentry
  · cases hentry
    exact h
  · cases hentry
  · cases hentry
    refine ⟨fun key hkey => has_setPropertyWhenLocked (h.has key hkey), ?_⟩
    intro hsave
    simp [rc_ne_failed] at hsave

theorem LoopKeeps.loop {loop loop' : BulkState} (h : LoopKeeps m loop)
    (hloop : group.foldlM (setBulkEntry confVersion) loop = some loop') : LoopKeeps m loop' := by
  induction group generalizing loop with
  | nil =>
    cases hloop
    exact h
  | cons entry group ih =>
    obtain ⟨next, hentry, hrest⟩ := Option.bind_eq_some_iff.mp hloop
    exact ih (h.entry hentry) hrest

theorem setPropertiesBulk_effect {worked : Bool} {events : List PropertyEvent}
    (h : setPropertiesBulk order calls s group = some (s', worked, events)) :
    Effect order s s' := by
  unfold setPropertiesBulk at h
  split at h
  · cases h
    exact .nothing rfl
  · obtain ⟨loop, hloop, heq⟩ := Option.map_eq_some_iff.mp h
    have hkeeps := LoopKeeps.loop ⟨fun _ => id, fun _ => rfl⟩ hloop
    cases hsave : loop.doSave with
    | true =>
      simp only [hsave, if_true] at heq
      cases heq
      exact .wrote loop.map calls (fun h pair hpair => hkeeps.has _ (h pair hpair)) rfl
    | false =>
      simp only [hsave, Bool.false_eq_true, if_false, hkeeps.same hsave] at heq
      cases heq
      exact .nothing rfl

theorem delete_of_missing {key : CString} (h : (m.delete key).2 = false) :
    (m.delete key).1 = m := by
  have hnone : (hashMapDelete m.map (textKey key)).1 = m.map := by
    have hget : (hashMapDelete m.map (textKey key)).2 = false := h
    unfold hashMapDelete at hget ⊢
    split at hget
    · rfl
    · cases hget
  obtain ⟨map, hkeyed⟩ := m
  simp only [PropertyMap.delete, PropertyMap.mk.injEq]
  exact hnone

theorem deleteProperty_effect (key : CString) :
    Effect order s (deleteProperty order calls s key).1 := by
  unfold deleteProperty
  simp only []
  split
  · exact .wrote _ calls (fun _ pair hpair =>
      has_of_mem_foldl _ (defaultProperty pair) (List.mem_map_of_mem hpair)) rfl
  · rename_i hmissing
    apply Effect.nothing
    simp only [delete_of_missing (Bool.not_eq_true _ ▸ hmissing)]

theorem step_effect (h : step order s op = some (s', reply)) : Effect order s s' := by
  obtain ⟨call, calls⟩ := op
  cases call with
  | setProperty prop =>
    cases h
    exact setProperty_effect prop
  | setPropertyOverwrite prop =>
    cases h
    exact setPropertyOverwrite_effect prop
  | setPropertiesBulk group =>
    obtain ⟨⟨s'', worked, events⟩, hbulk, ⟨⟩⟩ := Option.map_eq_some_iff.mp h
    exact setPropertiesBulk_effect hbulk
  | deleteProperty key =>
    cases h
    exact deleteProperty_effect key

/-! ## What holds in every run -/

/-- The defaults are there, and a file that was written holds the map and the version. -/
structure Sound (order : IterationOrder) (s : PropsState) : Prop where
  defaults : ∀ pair ∈ defaultProperties, s.propertyMap.Has pair.1
  saved : s.written = true →
    s.files.original = some (configFile order s.propertyMap s.confVersion)

theorem original_writeConfigFile
    (h : (writeConfigFile order calls s).1.written = true) :
    (writeConfigFile order calls s).1.files.original =
      some (configFile order (writeConfigFile order calls s).1.propertyMap
        (writeConfigFile order calls s).1.confVersion) := by
  unfold writeConfigFile at h ⊢
  cases hopen : calls.openTemp with
  | false => simp [hopen] at h
  | true =>
    simp only [hopen, Bool.not_true, Bool.false_eq_true, if_false, Bool.and_eq_true,
      Option.isNone_iff_eq_none] at h ⊢
    obtain ⟨hcut, hrename⟩ := h
    apply original_safeFileSave _ hrename
    rw [hcut]
    rfl

theorem propertyMap_writeConfigFile :
    (writeConfigFile order calls s).1.propertyMap = s.propertyMap := by
  unfold writeConfigFile
  split <;> rfl

theorem confVersion_writeConfigFile :
    (writeConfigFile order calls s).1.confVersion = s.confVersion + 1 := by
  unfold writeConfigFile
  split <;> rfl

theorem writeConfigFile_sound (h : ∀ pair ∈ defaultProperties, s.propertyMap.Has pair.1) :
    Sound order (writeConfigFile order calls s).1 := by
  refine ⟨?_, original_writeConfigFile⟩
  rw [propertyMap_writeConfigFile]
  exact h

/-- In every call, the defaults stay and a file that is written holds the map. -/
theorem Sound.step (h : Sound order s) (hstep : Props.step order s op = some (s', reply)) :
    Sound order s' := by
  cases step_effect hstep with
  | nothing heq => rwa [heq]
  | wrote m calls hdefaults heq =>
    rw [heq]
    exact writeConfigFile_sound (hdefaults h.defaults)

end

/-! ## The start of a process -/

/-- All that is filled in at the start. -/
def startProperties (args : StartArgs) : List Property :=
  pathProperties args ++ defaultProperties.map defaultProperty

section

variable (order : IterationOrder) (args : StartArgs) (files : Files ConfigFile)

/-- The state after the file was read. -/
def afterReading : PropsState :=
  match fileToRead files with
  | some file => (readConfigFile order args.migrateCalls file ⟨.create, 0, files, false⟩).1
  | none => ⟨.create, 0, files, false⟩

/-- The map after the defaults were filled in, and whether one was missing. -/
def filledIn : PropertyMap × Bool :=
  (startProperties args).foldl (setIfMissing (afterReading order args files).confVersion)
    ((afterReading order args files).propertyMap, false)

theorem initProperties_eq :
    initProperties order args files =
      let s := { afterReading order args files with propertyMap := (filledIn order args files).1 }
      if (filledIn order args files).2 then (writeConfigFile order args.saveCalls s).1 else s := by
  unfold filledIn startProperties
  rw [List.foldl_append]
  rfl

theorem afterReading_saved (h : (afterReading order args files).written = true) :
    (afterReading order args files).files.original =
      some (configFile order (afterReading order args files).propertyMap
        (afterReading order args files).confVersion) := by
  revert h
  fun_cases afterReading order args files <;> intro h
  case case2 => cases h
  case case1 file _ =>
    revert h
    fun_cases readConfigFile order args.migrateCalls file ⟨.create, 0, files, false⟩ <;> intro h
    case case3 => exact original_writeConfigFile h
    all_goals cases h

theorem has_filledIn : ∀ pair ∈ defaultProperties, (filledIn order args files).1.Has pair.1 := by
  intro pair hpair
  have hmem : defaultProperty pair ∈ startProperties args :=
    List.mem_append_right _ (List.mem_map_of_mem hpair)
  exact has_of_mem_foldl _ (defaultProperty pair) hmem

theorem filledIn_of_same (h : (filledIn order args files).2 = false) :
    (filledIn order args files).1 = (afterReading order args files).propertyMap := by
  unfold filledIn at h ⊢
  have hhas := has_of_foldl_setIfMissing h
  rw [foldl_setIfMissing_of_has hhas]

/-- It is so from the start. -/
theorem initProperties_sound : Sound order (initProperties order args files) := by
  have hdefaults := has_filledIn order args files
  have hsame := filledIn_of_same order args files
  rw [initProperties_eq]
  -- the defaults are not to be filled in by the unifier
  generalize filledIn order args files = filled at hdefaults hsame ⊢
  obtain ⟨m, missing⟩ := filled
  cases missing with
  | true => exact writeConfigFile_sound hdefaults
  | false =>
    obtain rfl : m = (afterReading order args files).propertyMap := hsame rfl
    exact ⟨hdefaults, afterReading_saved order args files⟩

end

end ZilkerSdk.Props

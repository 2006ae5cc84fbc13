import ZilkerSdk.Ipc.Transport
import ZilkerSdk.Lib.Run
import ZilkerSdk.Props.Service
import ZilkerSdk.Props.TypeDefinitions

/-!
# Requests and the types of properties

Model of the handlers of `services/props/core/src/ipcHandler.c` that set properties.  The two that
set one property check its value first; the one that sets a group does not.  So a group can bring a
value into the map that its type does not allow.

* The handlers of a single property log the name of its source, from a table of four names and a
  NULL: any other source makes them read past its end.
-/

namespace ZilkerSdk.Props

open Lib Types Config Ipc

/-! ## Handlers -/

inductive PropSetResult where
  | ok
  | valueNotAllowed
  | generalError
  | invalidRequest
  | alreadyExists
  | ipcError
deriving DecidableEq

structure PropertySetResult where
  result : PropSetResult
  errorMessage : Option CString
deriving DecidableEq

/-- What a handler returns: the code, and the output if there is one. -/
inductive Response where
  | set (code : IPCCode) (output : Option PropertySetResult)
  | bulk (code : IPCCode) (output : Bool)
deriving DecidableEq

/-- The index of a source in `propSourceLabels` is in the table. -/
def HasLabel (source : PropSource) : Prop := source.toNat ≤ 4

instance (source : PropSource) : Decidable (HasLabel source) :=
  inferInstanceAs (Decidable (_ ≤ _))

/-- The handlers of a single property: the value is checked, the property set, and its source
looked up for the log. -/
def handleSingle (types : PropertyTypes)
    (set : Property → PropsState × SetPropRc × List PropertyEvent) (respond : SetPropRc → Response)
    (s : PropsState) : Option PropertyInput → Option (PropsState × Response)
  | some ⟨some key, some value, source⟩ =>
    match isValueValid types key (some value) with
    | .error message => some (s, .set .success (some ⟨.valueNotAllowed, some message⟩))
    | .ok () =>
      let done := set ⟨key, some value, source⟩
      if HasLabel source then some (done.1, respond done.2.1) else none
  | _ => some (s, .set .invalidError none)

section

variable (types : PropertyTypes) (order : IterationOrder) (calls : WriteCalls) (s : PropsState)

def handleSetCpeProperty : Option PropertyInput → Option (PropsState × Response) :=
  handleSingle types (setProperty order calls s)
    (fun rc =>
      if rc ≠ .failed ∧ rc ≠ .dropped then .set .success (some ⟨.ok, none⟩)
      else .set .generalError (some ⟨.generalError, none⟩)) s

/-- `handle_SET_CPE_PROPERTY_OVERWRITE_request`: a failure is reported with the code for success. -/
def handleSetCpePropertyOverwrite : Option PropertyInput → Option (PropsState × Response) :=
  handleSingle types (setPropertyOverwrite order calls s)
    (fun rc =>
      if rc ≠ .failed then .set .success (some ⟨.ok, none⟩)
      else .set .success (some ⟨.generalError, none⟩)) s

def handleSetCpePropertiesBulk (group : List (Option PropertyInput)) :
    Option (PropsState × Response) :=
  (setPropertiesBulk order calls s group).map fun (s', worked, _) => (s', .bulk .success worked)

end

inductive Request where
  | setCpeProperty (input : Option PropertyInput)
  | setCpePropertyOverwrite (input : Option PropertyInput)
  | setCpePropertiesBulk (group : List (Option PropertyInput))

/-- One request, and what the system calls of its handler do. -/
def handle (types : PropertyTypes) (order : IterationOrder) (s : PropsState) :
    Request × WriteCalls → Option (PropsState × Response)
  | (.setCpeProperty input, calls) => handleSetCpeProperty types order calls s input
  | (.setCpePropertyOverwrite input, calls) =>
    handleSetCpePropertyOverwrite types order calls s input
  | (.setCpePropertiesBulk group, calls) => handleSetCpePropertiesBulk order calls s group

/-! ## Valid values -/

/-- Every property of the map that has a type has a value that the type allows. -/
def Valid (types : PropertyTypes) (m : PropertyMap) : Prop :=
  ∀ item ∈ m.map.items, (hashMapGet types item.1).isSome →
    isValueValid types item.2.key item.2.value = .ok ()

instance (types : PropertyTypes) (m : PropertyMap) : Decidable (Valid types m) := by
  delta Valid
  infer_instance

section

variable {types : PropertyTypes} {m : PropertyMap} {confVersion : UInt64} {prop : Property}
  {sendEvent overwrite : Bool}

theorem Valid.set (h : Valid types m) (hprop : isValueValid types prop.key prop.value = .ok ()) :
    Valid types (setPropertyWhenLocked m confVersion prop sendEvent overwrite).map := by
  rintro ⟨k, new⟩ hitem htyped
  have hkeyed : k = textKey new.key :=
    (setPropertyWhenLocked m confVersion prop sendEvent overwrite).map.keyed (k, new) hitem
  have hget : (setPropertyWhenLocked m confVersion prop sendEvent overwrite).map.get k = some new :=
    mem_items_iff.mp hitem
  rcases get_setPropertyWhenLocked m confVersion prop sendEvent overwrite k with
    hsame | ⟨hk, new', hnew, hvalue, -⟩
  · exact h (k, new) (mem_items_iff.mpr (hsame.symm.trans hget)) htyped
  · obtain rfl : new' = new := Option.some.inj (hnew.symm.trans hget)
    unfold isValueValid at hprop ⊢
    rwa [hvalue, ← hkeyed, hk]

end

/-! ## Groups -/

/-- A property of a group has a value that its type allows, or it is dropped because of the property
that is there. -/
def Allowed (types : PropertyTypes) (confVersion : UInt64) (m : PropertyMap) :
    Option PropertyInput → Prop
  | some ⟨some key, value, source⟩ =>
    isValueValid types key value = .ok () ∨
      (setPropertyWhenLocked m confVersion ⟨key, value, source⟩ true false).rc = .dropped
  | _ => True

/-- The map after one turn of the loop. -/
def mapAfter (confVersion : UInt64) (m : PropertyMap) : Option PropertyInput → PropertyMap
  | some ⟨some key, value, source⟩ =>
    (setPropertyWhenLocked m confVersion ⟨key, value, source⟩ true false).map
  | _ => m

/-- Each property of a group is allowed when it is its turn. -/
def AllowedGroup (types : PropertyTypes) (confVersion : UInt64) :
    PropertyMap → List (Option PropertyInput) → Prop
  | _, [] => True
  | m, entry :: group =>
    Allowed types confVersion m entry ∧
      AllowedGroup types confVersion (mapAfter confVersion m entry) group

/-- The condition on a request: a group has only properties that are allowed. -/
def Checked (types : PropertyTypes) (s : PropsState) : Request × WriteCalls → Prop
  | (.setCpePropertiesBulk group, _) => AllowedGroup types s.confVersion s.propertyMap group
  | _ => True

instance (types : PropertyTypes) (confVersion : UInt64) (m : PropertyMap) :
    DecidablePred (Allowed types confVersion m) := fun _ => by
  delta Allowed
  split <;> infer_instance

instance AllowedGroup.decidable (types : PropertyTypes) (confVersion : UInt64) :
    ∀ m group, Decidable (AllowedGroup types confVersion m group)
  | _, [] => isTrue trivial
  | m, entry :: group =>
    have := AllowedGroup.decidable types confVersion (mapAfter confVersion m entry) group
    inferInstanceAs (Decidable (_ ∧ _))

instance (types : PropertyTypes) (s : PropsState) : DecidablePred (Checked types s) := fun _ => by
  delta Checked
  split <;> infer_instance

section

variable {types : PropertyTypes} {order : IterationOrder} {confVersion : UInt64}
  {entry : Option PropertyInput} {group : List (Option PropertyInput)} {response : Response}

theorem Valid.mapAfter {m : PropertyMap} (h : Valid types m)
    (hentry : Allowed types confVersion m entry) :
    Valid types (Props.mapAfter confVersion m entry) := by
  unfold Allowed at hentry
  unfold Props.mapAfter
  split at hentry
  · rcases hentry with hvalid | hdropped
    · exact h.set hvalid
    · simp only [map_of_dropped hdropped]
      exact h
  · exact h

theorem map_setBulkEntry {loop loop' : BulkState}
    (h : setBulkEntry confVersion loop entry = some loop') :
    loop'.map = mapAfter confVersion loop.map entry := by
  unfold setBulkEntry at h
  split at h
  · cases h
    rfl
  · cases h
  · cases h
    rfl

theorem Valid.loop {loop loop' : BulkState} (h : Valid types loop.map)
    (hgroup : AllowedGroup types confVersion loop.map group)
    (hloop : group.foldlM (setBulkEntry confVersion) loop = some loop') :
    Valid types loop'.map := by
  induction group generalizing loop with
  | nil =>
    cases hloop
    exact h
  | cons entry group ih =>
    obtain ⟨next, hentry, hrest⟩ := Option.bind_eq_some_iff.mp hloop
    have hmap := map_setBulkEntry hentry
    apply ih _ _ hrest
    · rw [hmap]
      exact h.mapAfter hgroup.1
    · rw [hmap]
      exact hgroup.2

variable {s s' : PropsState} {calls : WriteCalls}

theorem Valid.bulk {worked : Bool} {events : List PropertyEvent} (h : Valid types s.propertyMap)
    (hgroup : AllowedGroup types s.confVersion s.propertyMap group)
    (hbulk : setPropertiesBulk order calls s group = some (s', worked, events)) :
    Valid types s'.propertyMap := by
  unfold setPropertiesBulk at hbulk
  split at hbulk
  · cases hbulk
    exact h
  · obtain ⟨loop, hloop, heq⟩ := Option.map_eq_some_iff.mp hbulk
    have hvalid : Valid types loop.map := Valid.loop h hgroup hloop
    cases heq
    split
    · rw [propertyMap_writeConfigFile]
      exact hvalid
    · exact hvalid

/-! ## Single properties -/

theorem propertyMap_setProperty (prop : Property) :
    (setProperty order calls s prop).1.propertyMap =
      (setPropertyWhenLocked s.propertyMap s.confVersion prop true false).map := by
  unfold setProperty
  simp only []
  split
  · exact propertyMap_writeConfigFile
  · rfl

theorem propertyMap_setPropertyOverwrite (prop : Property) :
    (setPropertyOverwrite order calls s prop).1.propertyMap =
      (setPropertyWhenLocked s.propertyMap s.confVersion prop true true).map := by
  unfold setPropertyOverwrite
  simp only []
  split
  · exact propertyMap_writeConfigFile
  · rfl

/-- The handler of a single property does nothing, or sets a value that is allowed. -/
theorem Valid.single {set : Property → PropsState × SetPropRc × List PropertyEvent}
    {respond : SetPropRc → Response} {input : Option PropertyInput} {overwrite : Bool}
    (h : Valid types s.propertyMap)
    (hset : ∀ prop, (set prop).1.propertyMap =
      (setPropertyWhenLocked s.propertyMap s.confVersion prop true overwrite).map)
    (hsingle : handleSingle types set respond s input = some (s', response)) :
    Valid types s'.propertyMap := by
  revert hsingle
  fun_cases handleSingle types set respond s input <;> rintro ⟨⟩
  case case2 hvalid _ _ =>
    rw [hset]
    exact h.set hvalid
  all_goals exact h

/-! ## Requests -/

/-- A request keeps typed values valid if it is not a group with a value that is applied and not
allowed. -/
theorem Valid.step {request : Request × WriteCalls} (h : Valid types s.propertyMap)
    (hchecked : Checked types s request)
    (hstep : handle types order s request = some (s', response)) : Valid types s'.propertyMap := by
  obtain ⟨request, calls⟩ := request
  cases request with
  | setCpeProperty input =>
    unfold handle handleSetCpeProperty at hstep
    exact h.single propertyMap_setProperty hstep
  | setCpePropertyOverwrite input =>
    unfold handle handleSetCpePropertyOverwrite at hstep
    exact h.single propertyMap_setPropertyOverwrite hstep
  | setCpePropertiesBulk group =>
    obtain ⟨⟨s'', worked, events⟩, hbulk, ⟨⟩⟩ := Option.map_eq_some_iff.mp hstep
    exact h.bulk hchecked hbulk

end

/-- For every set of type definitions, in every run of requests from a map with valid values in
which each property of a group is allowed when it is its turn, the values stay valid. -/
theorem typed_values_valid (types : PropertyTypes) (order : IterationOrder)
    (s s' : PropsState) (requests : List (Request × WriteCalls)) (responses : List Response)
    (hstart : Valid types s.propertyMap)
    (hchecked : Guarded (handle types order) (Checked types) s requests)
    (hrun : run (handle types order) s requests = some (s', responses)) :
    Valid types s'.propertyMap := by
  apply run_invariant _ _ hchecked hrun
  · exact fun _ _ _ _ h hchecked hstep => Valid.step h hchecked hstep
  · exact hstart

/-! ## Runs -/

/-- The property `flag` is a boolean. -/
def flagTypes : PropertyTypes := (hashMapPut hashMapCreate "flag".toList .boolean).1

def emptyState : PropsState := ⟨.create, 0, ⟨none, none, none⟩, false⟩

def flagTo (value : String) (source : PropSource) : Option PropertyInput :=
  some ⟨some "flag".toList, some value.toList, source⟩

theorem typed_values_valid_flag :
    ∃ s responses, run (handle flagTypes .byPut) emptyState
        [(.setCpeProperty (flagTo "true" .server), .work),
          (.setCpePropertyOverwrite (flagTo "No" .default), .work),
          (.setCpePropertiesBulk [flagTo "1" .xconf, flagTo "maybe" .server], .work)] =
        some (s, responses) ∧
      s.propertyMap.get "flag".toList = some ⟨"flag".toList, some "1".toList, .xconf⟩ ∧
      Valid flagTypes s.propertyMap := by
  have hrun : ((run (handle flagTypes .byPut) emptyState
      [(.setCpeProperty (flagTo "true" .server), .work),
        (.setCpePropertyOverwrite (flagTo "No" .default), .work),
        (.setCpePropertiesBulk [flagTo "1" .xconf, flagTo "maybe" .server], .work)]).map fun r =>
        decide (r.1.propertyMap.get "flag".toList =
          some ⟨"flag".toList, some "1".toList, .xconf⟩)) = some true := by
    decide +kernel
  obtain ⟨⟨s, responses⟩, hs, hvalue⟩ := Option.map_eq_some_iff.mp hrun
  have hchecked : Guarded (handle flagTypes .byPut) (Checked flagTypes) emptyState
      [(.setCpeProperty (flagTo "true" .server), .work),
        (.setCpePropertyOverwrite (flagTo "No" .default), .work),
        (.setCpePropertiesBulk [flagTo "1" .xconf, flagTo "maybe" .server], .work)] := by
    decide +kernel
  exact ⟨s, responses, hs, of_decide_eq_true hvalue,
    typed_values_valid flagTypes .byPut emptyState s _ responses (by decide +kernel) hchecked hs⟩

/-- A group with a value that is not a boolean is set; a single request with it is refused. -/
theorem bulk_breaks_type :
    Valid flagTypes emptyState.propertyMap ∧
      (∃ s, run (handle flagTypes .byPut) emptyState
          [(.setCpeProperty (flagTo "maybe" .server), .work),
            (.setCpePropertiesBulk [flagTo "maybe" .server], .work)] =
          some (s, [.set .success (some ⟨.valueNotAllowed,
            some "Value maybe is not a valid boolean value".toList⟩), .bulk .success true]) ∧
        s.propertyMap.get "flag".toList = some ⟨"flag".toList, some "maybe".toList, .server⟩ ∧
        ¬ Valid flagTypes s.propertyMap) := by
  refine ⟨by decide +kernel, ?_⟩
  have hrun : ((run (handle flagTypes .byPut) emptyState
      [(.setCpeProperty (flagTo "maybe" .server), .work),
        (.setCpePropertiesBulk [flagTo "maybe" .server], .work)]).map fun r =>
        decide (r.2 = [.set .success (some ⟨.valueNotAllowed,
            some "Value maybe is not a valid boolean value".toList⟩), .bulk .success true] ∧
          r.1.propertyMap.get "flag".toList =
            some ⟨"flag".toList, some "maybe".toList, .server⟩ ∧
          ¬ Valid flagTypes r.1.propertyMap)) = some true := by
    decide +kernel
  obtain ⟨⟨s, responses⟩, hs, hfacts⟩ := Option.map_eq_some_iff.mp hrun
  obtain ⟨hresponses, hvalue, hbroken⟩ := of_decide_eq_true hfacts
  exact ⟨s, hresponses ▸ hs, hvalue, hbroken⟩

end ZilkerSdk.Props

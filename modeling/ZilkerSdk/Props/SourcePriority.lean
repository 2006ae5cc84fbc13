import ZilkerSdk.Lib.Run
import ZilkerSdk.Props.Service

/-!
# The priority of sources

A property is written with a source, and a source with a lower priority does not replace one with a
higher priority.  So after any number of writes a property is what was written last among the writes
of the highest priority.
-/

namespace ZilkerSdk.Props

open Lib Types

/-- Value and source of a write, or of a property that is there. -/
abbrev Written := Option CString × PropSource

def Property.written (prop : Property) : Written := (prop.value, prop.source)

/-- What is found for a key. -/
def stored (m : PropertyMap) (key : CString) : Option Written :=
  (getPropertyWhenLocked m key).map Property.written

/-- The last one among the writes of the highest priority.  There is one unless
there are no writes. -/
def LastMaximal (writes : List Written) : Option Written → Prop
  | none => writes = []
  | some last => ∃ before after, writes = before ++ last :: after ∧
      (∀ w ∈ before, w.2 ≤ last.2) ∧ ∀ w ∈ after, w.2 < last.2

/-- A further write takes the place of what there is unless its priority is lower. -/
def latest (best : Option Written) (w : Written) : Written :=
  match best with
  | none => w
  | some last => if last.2 ≤ w.2 then w else last

theorem LastMaximal.snoc {writes : List Written} {best : Option Written}
    (h : LastMaximal writes best) (w : Written) :
    LastMaximal (writes ++ [w]) (some (latest best w)) := by
  cases best with
  | none =>
    obtain rfl : writes = [] := h
    exact ⟨[], [], rfl, List.forall_mem_nil _, List.forall_mem_nil _⟩
  | some last =>
    obtain ⟨before, after, rfl, hbefore, hafter⟩ := h
    by_cases hle : last.2 ≤ w.2
    · -- nothing has a higher priority than the new write
      rw [latest, if_pos hle]
      refine ⟨before ++ last :: after, [], rfl, fun x hx => ?_, List.forall_mem_nil _⟩
      obtain hx | hx := List.mem_append.mp hx
      · exact BitVec.le_trans (hbefore x hx) hle
      · obtain rfl | hx := List.mem_cons.mp hx
        · exact hle
        · exact BitVec.le_trans (BitVec.le_of_lt (hafter x hx)) hle
    · rw [latest, if_neg hle]
      refine ⟨before, after ++ [w], by simp, hbefore, fun x hx => ?_⟩
      obtain hx | hx := List.mem_append.mp hx
      · exact hafter x hx
      · rw [List.mem_singleton.mp hx]
        exact BitVec.not_le.mp hle

/-- Under its own key a write leaves the later one of the highest priority; where the same value is
written again with the same source, it does not matter that the write is dropped. -/
theorem stored_setPropertyWhenLocked (m : PropertyMap) (confVersion : UInt64) (prop : Property)
    (sendEvent : Bool) (key : CString) :
    stored (setPropertyWhenLocked m confVersion prop sendEvent false).map key =
      if textKey prop.key = textKey key then some (latest (stored m key) prop.written)
      else stored m key := by
  unfold setPropertyWhenLocked stored getPropertyWhenLocked
  by_cases hkey : textKey prop.key = textKey key
  · rw [if_pos hkey, hkey]
    cases hget : m.get (textKey key) with
    | none =>
      simp only [PropertyMap.get_put (hkey ▸ hget), hkey, if_true]
      rfl
    | some old =>
      -- the write is dropped if its priority is lower, or if it says the same again
      by_cases hreplaces : Replaces false prop old
      · have hle : old.source ≤ prop.source := by
          obtain h | h | ⟨h, -⟩ := hreplaces
          · cases h
          · exact BitVec.le_of_lt h
          · exact BitVec.le_of_eq h.symm
        simp only [if_pos hreplaces, PropertyMap.get_assign, hkey, if_true, hget, Option.map_some]
        exact congrArg some (if_pos hle).symm
      · simp only [if_neg hreplaces, hget, Option.map_some]
        unfold Replaces at hreplaces
        push Not at hreplaces
        obtain ⟨-, hnot, hsame⟩ := hreplaces
        by_cases hle : old.source ≤ prop.source
        · -- the dropped write is the same again
          have heq : prop.source = old.source := BitVec.le_antisymm (BitVec.not_lt.mp hnot) hle
          have hwritten : prop.written = old.written := Prod.ext (hsame heq) heq
          rw [hwritten]
          exact congrArg some (if_pos (BitVec.le_refl old.source)).symm
        · exact congrArg some (if_neg hle).symm
  · rw [if_neg hkey]
    cases hget : m.get (textKey prop.key) with
    | none => simp only [PropertyMap.get_put hget, Ne.symm hkey, if_false]
    | some old =>
      dsimp only
      split
      · simp only [PropertyMap.get_assign, Ne.symm hkey, if_false]
      · rfl

/-! ## Runs of writes -/

/-- The calls that write without overwriting.  An entry of a group may be NULL. -/
inductive SetCall where
  | setProperty (prop : Property)
  | setPropertiesBulk (group : List (Option Property))

def SetCall.call : SetCall → Call
  | .setProperty prop => .setProperty prop
  | .setPropertiesBulk group =>
    .setPropertiesBulk (group.map (Option.map fun prop => ⟨some prop.key, prop.value, prop.source⟩))

/-- The writes of a call.  A group whose count is zero in 16 bits is refused. -/
def SetCall.writes : SetCall → List Property
  | .setProperty prop => [prop]
  | .setPropertiesBulk group => if group.length % 2 ^ 16 = 0 then [] else group.reduceOption

/-- One write after the other. -/
def setAll (confVersion : UInt64) (m : PropertyMap) (writes : List Property) : PropertyMap :=
  writes.foldl (fun m prop => (setPropertyWhenLocked m confVersion prop true false).map) m

theorem foldlM_setBulkEntry (confVersion : UInt64) (group : List (Option Property))
    (loop : BulkState) : ∃ loop',
      (group.map (Option.map fun prop => ⟨some prop.key, prop.value, prop.source⟩)).foldlM
        (setBulkEntry confVersion) loop = some loop' ∧
      loop'.map = setAll confVersion loop.map group.reduceOption := by
  induction group generalizing loop with
  | nil => exact ⟨loop, rfl, rfl⟩
  | cons entry group ih =>
    cases entry with
    | none => exact ih loop
    | some prop => exact ih _

theorem step_call (order : IterationOrder) (s : PropsState) (c : SetCall) (calls : WriteCalls) :
    ∃ s' reply, step order s (c.call, calls) = some (s', reply) ∧
      s'.propertyMap = setAll s.confVersion s.propertyMap c.writes := by
  cases c with
  | setProperty prop =>
    refine ⟨_, _, rfl, ?_⟩
    show (setProperty order calls s prop).1.propertyMap = _
    unfold setProperty
    dsimp only
    split
    · rw [propertyMap_writeConfigFile]
      rfl
    · rfl
  | setPropertiesBulk group =>
    obtain ⟨loop, hloop, hmap⟩ := foldlM_setBulkEntry s.confVersion group ⟨s.propertyMap, false, []⟩
    simp only [SetCall.call, SetCall.writes, step, setPropertiesBulk, List.length_map, hloop]
    split
    · exact ⟨_, _, rfl, rfl⟩
    · refine ⟨_, _, rfl, ?_⟩
      rw [← hmap]
      dsimp only
      split
      · rw [propertyMap_writeConfigFile]
      · rfl

/-- The writes to a key, as texts are keys of the map. -/
def writesTo (key : CString) (writes : List Property) : List Written :=
  (writes.filter fun prop => textKey prop.key = textKey key).map Property.written

theorem lastMaximal_setAll {key : CString} {confVersion : UInt64} {m : PropertyMap}
    {earlier : List Written} (h : LastMaximal earlier (stored m key)) (writes : List Property) :
    LastMaximal (earlier ++ writesTo key writes) (stored (setAll confVersion m writes) key) := by
  induction writes generalizing m earlier with
  | nil => simpa [writesTo, setAll] using h
  | cons prop writes ih =>
    have hstored := stored_setPropertyWhenLocked m confVersion prop true key
    by_cases hkey : textKey prop.key = textKey key
    · rw [if_pos hkey] at hstored
      have hnext := ih (hstored ▸ h.snoc prop.written)
      simpa [writesTo, hkey, setAll] using hnext
    · rw [if_neg hkey] at hstored
      simpa [writesTo, hkey, setAll] using ih (hstored ▸ h)

theorem lastMaximal_run (order : IterationOrder) {s : PropsState} {earlier : CString → List Written}
    (h : ∀ key, LastMaximal (earlier key) (stored s.propertyMap key))
    (calls : List (SetCall × WriteCalls)) :
    ∃ s' replies, run (step order) s (calls.map fun c => (c.1.call, c.2)) = some (s', replies) ∧
      ∀ key, LastMaximal (earlier key ++ writesTo key (calls.flatMap fun c => c.1.writes))
        (stored s'.propertyMap key) := by
  induction calls generalizing s earlier with
  | nil => exact ⟨s, [], rfl, by simpa [writesTo] using h⟩
  | cons c calls ih =>
    obtain ⟨s₁, reply, hstep, hmap⟩ := step_call order s c.1 c.2
    obtain ⟨s', replies, hrun, hlast⟩ := ih fun key => by
      rw [hmap]
      exact lastMaximal_setAll (h key) c.1.writes
    refine ⟨s', reply :: replies, run_cons_eq_some.mpr ⟨s₁, reply, replies, hstep, hrun, rfl⟩, ?_⟩
    simpa [writesTo] using hlast

end ZilkerSdk.Props

import ZilkerSdk.Props.Restart

/-!
# Restoring the properties

Model of `restorePropConfig` in `services/props/core/src/properties.c`, which replaces the
properties by those of a file in another directory.  It clears the map before it looks for the file.
 If the file is not there, or has five bytes or fewer, the call fails and the properties are gone,
the defaults included, until the next start.
-/

namespace ZilkerSdk.Props

open Types Config

/-- The file to restore, as `stat` and the parser find it. -/
structure RestoreFile where
  size : Nat
  content : ConfigFile

/-- What the writes of the file do, in a migration and at the end. -/
structure RestoreCalls where
  migrateCalls : WriteCalls
  saveCalls : WriteCalls

/-- Is the file there, and worth parsing? -/
def isRestorable (oldFile : Option RestoreFile) : Bool := oldFile.any (5 < ·.size)

/-- The dynamic directory is set if the file did not have it. -/
def setDynamicDir (dynamicDir : CString) (confVersion : UInt64) (m : PropertyMap) : PropertyMap :=
  match getPropertyWhenLocked m "IC_DYNAMIC_DIR".toList with
  | none => (setPropertyWhenLocked m confVersion
      ⟨"IC_DYNAMIC_DIR".toList, some dynamicDir, .device⟩ false true).map
  | some _ => m

/-- `restorePropConfig`; `dynamicDir` is the parent of `destDir`. -/
def restorePropConfig (order : IterationOrder) (calls : RestoreCalls) (oldFile : Option RestoreFile)
    (dynamicDir : CString) (s : PropsState) : PropsState × Bool :=
  let cleared := { s with propertyMap := .create }
  match oldFile with
  | none => (cleared, false)
  | some file =>
    if file.size > 5 then
      let read := (readConfigFile order calls.migrateCalls file.content cleared).1
      let m := setDynamicDir dynamicDir read.confVersion read.propertyMap
      let filled := ensureDefaults read.confVersion (m, false)
      ((writeConfigFile order calls.saveCalls { read with propertyMap := filled.1 }).1, true)
    else (cleared, false)

variable {oldFile : Option RestoreFile}

/-- The same properties and version, and the same after every later start. -/
def Unchanged (s s' : PropsState) : Prop :=
  SameProperties s s' ∧
    ∀ order args, initProperties order args s'.files = initProperties order args s.files

/-- A restore that fails has cleared the map: it changes nothing only if there was nothing in it. -/
theorem failed_restore_unchanged_iff (order : IterationOrder) (calls : RestoreCalls)
    (oldFile : Option RestoreFile) (dynamicDir : CString) (s : PropsState) :
    ((restorePropConfig order calls oldFile dynamicDir s).2 = false →
        Unchanged s (restorePropConfig order calls oldFile dynamicDir s).1) ↔
      isRestorable oldFile = true ∨ s.propertyMap.map.items = [] := by
  cases hfile : isRestorable oldFile with
  | true =>
    have hok : (restorePropConfig order calls oldFile dynamicDir s).2 = true := by
      cases oldFile with
      | none => cases hfile
      | some file => simp_all [restorePropConfig, isRestorable]
    simp [hok]
  | false =>
    have hfailed : restorePropConfig order calls oldFile dynamicDir s =
        ({ s with propertyMap := .create }, false) := by
      cases oldFile with
      | none => rfl
      | some file => simp_all [restorePropConfig, isRestorable]
    rw [hfailed]
    simp only [forall_const, Bool.false_eq_true, false_or]
    constructor
    · rintro ⟨⟨-, hsame⟩, -⟩
      apply List.eq_nil_iff_forall_not_mem.mpr
      intro item hitem
      -- what was found under the key of the item is not found any more
      have hget : s.propertyMap.get item.1 = some item.2 := mem_items_iff.mp hitem
      have hnone := hsame item.1
      rw [hget] at hnone
      cases hnone
    · intro hempty
      refine ⟨⟨rfl, fun k => ?_⟩, fun _ _ => rfl⟩
      have hget : s.propertyMap.get k = PropertyMap.create.get k := by
        apply hashMapGet_congr
        exact hempty
      rw [hget]

/-- After the first start there is no file to restore: the call fails, and the directory that the
service was started with is not set any more. -/
theorem failed_restore_clears :
    let s := initProperties .byPut optArgs noFiles
    let restored := restorePropConfig .byPut ⟨.work, .work⟩ none "/opt".toList s
    restored.2 = false ∧
      s.propertyMap.get "IC_DYNAMIC_DIR".toList =
        some ⟨"IC_DYNAMIC_DIR".toList, some "/opt".toList, .device⟩ ∧
      restored.1.propertyMap.get "IC_DYNAMIC_DIR".toList = none := by
  decide +kernel

end ZilkerSdk.Props

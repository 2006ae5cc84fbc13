import ZilkerSdk.Lib.Run
import ZilkerSdk.Props.Service

/-!
# Properties and a restart

The reader skips a property whose key or value is empty, before the defaults are filled in.  So a
property that was set to the empty text is gone after a restart, or has its default again; and one
of the defaults is itself empty (`cpe.blacklistedDevices`), so that it is filled in, and the file
written with a new version, at every start.
-/

namespace ZilkerSdk.Props

open Lib Types Config

/-- The same value and source under every key, and the same version. -/
def SameProperties (s s' : PropsState) : Prop :=
  s'.confVersion = s.confVersion ∧
    ∀ k, (s'.propertyMap.get k).map (fun prop => (prop.value, prop.source)) =
      (s.propertyMap.get k).map fun prop => (prop.value, prop.source)

/-- There is no property that the reader skips. -/
def AllComplete (m : PropertyMap) : Prop := ∀ item ∈ m.map.items, item.2.Complete

/-! ## A new process on the files of an old one -/

section

variable {order order' : IterationOrder} {args : StartArgs} {s : PropsState}

theorem afterReading_of_written (order' : IterationOrder) (args : StartArgs)
    (hsound : Sound order s) (hwritten : s.written = true) :
    afterReading order' args s.files =
      ⟨readBack (order.list s.propertyMap), s.confVersion, s.files, false⟩ := by
  have hfile := hsound.saved hwritten
  have hread : fileToRead s.files = some (configFile order s.propertyMap s.confVersion) := by
    have hchoice : chooseFileToRead ConfigFile.isEmpty s.files = .originalFile := by
      rw [chooseFileToRead, hfile]
      rfl
    rw [fileToRead, hchoice, hfile]
  rw [afterReading, hread]
  simp only [readConfigFile_configFile order order' args.migrateCalls s.propertyMap s.confVersion
    ⟨.create, 0, s.files, false⟩ rfl]

theorem get_readBack_of_complete (order : IterationOrder) (h : AllComplete s.propertyMap)
    (k : Key) : (readBack (order.list s.propertyMap)).get k = s.propertyMap.get k := by
  rw [get_readBack]
  cases hget : s.propertyMap.get k with
  | none => rfl
  | some prop =>
    have hcomplete : prop.Complete := h (k, prop) (mem_items_iff.mpr hget)
    simp [Option.filter, hcomplete]

theorem has_startProperties {m : PropertyMap}
    (h : ∀ pair ∈ defaultProperties, m.Has pair.1) :
    ∀ prop ∈ startProperties args, m.Has prop.key := by
  intro prop hprop
  rcases List.mem_append.mp hprop with hprop | hprop
  · have hpath : prop.key = "IC_DYNAMIC_DIR".toList ∨ prop.key = "IC_STATIC_DIR".toList := by
      simp only [pathProperties, List.mem_cons, List.not_mem_nil, or_false] at hprop
      rcases hprop with rfl | rfl
      · exact .inl rfl
      · exact .inr rfl
    rcases hpath with hkey | hkey <;> rw [hkey]
    · exact h ("IC_DYNAMIC_DIR".toList, "/opt".toList) List.mem_cons_self
    · exact h ("IC_STATIC_DIR".toList, "/vendor".toList) (List.mem_cons_of_mem _ List.mem_cons_self)
  · obtain ⟨pair, hpair, rfl⟩ := List.mem_map.mp hprop
    exact h pair hpair

theorem restart_of_complete (hsound : Sound order s) (hwritten : s.written = true)
    (h : AllComplete s.propertyMap) :
    SameProperties s (initProperties order' args s.files) := by
  have hget := get_readBack_of_complete order h
  have hread := afterReading_of_written order' args hsound hwritten
  have hhas : ∀ pair ∈ defaultProperties,
      (readBack (order.list s.propertyMap)).Has pair.1 := by
    intro pair hpair
    rw [PropertyMap.Has, getPropertyWhenLocked, hget]
    exact hsound.defaults pair hpair
  have hfilled : filledIn order' args s.files = (readBack (order.list s.propertyMap), false) := by
    rw [filledIn, hread]
    exact foldl_setIfMissing_of_has (has_startProperties hhas)
  rw [initProperties_eq, hfilled, hread]
  exact ⟨rfl, fun k => congrArg _ (hget k)⟩

theorem complete_of_restart (hsound : Sound order s) (hwritten : s.written = true)
    (h : SameProperties s (initProperties order' args s.files)) : AllComplete s.propertyMap := by
  have hread := afterReading_of_written order' args hsound hwritten
  rw [initProperties_eq] at h
  split at h
  · -- the file is written once more, with another version
    have hversion := h.1
    rw [confVersion_writeConfigFile, hread] at hversion
    have hne : s.confVersion + 1 ≠ s.confVersion := by
      intro heq
      have hnat := congrArg UInt64.toNat heq
      rw [UInt64.toNat_add, UInt64.toNat_one] at hnat
      omega
    exact absurd hversion hne
  · rename_i hsame
    rw [filledIn_of_same order' args s.files (Bool.not_eq_true _ ▸ hsame), hread] at h
    intro item hitem
    have hkey := h.2 item.1
    simp only [get_readBack] at hkey
    have hold : s.propertyMap.get item.1 = some item.2 := mem_items_iff.mp hitem
    rw [hold] at hkey
    by_contra hskip
    simp [Option.filter, hskip] at hkey

end

def optArgs : StartArgs := ⟨"/opt".toList, "/vendor".toList, .work, .work⟩

def noFiles : Files ConfigFile := ⟨none, none, none⟩

def setTo (key value : String) : Call × WriteCalls :=
  (.setProperty ⟨key.toList, some value.toList, .server⟩, .work)

end ZilkerSdk.Props

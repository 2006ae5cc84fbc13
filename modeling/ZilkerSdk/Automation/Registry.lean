import ZilkerSdk.Automation.Model

/-!
# The four places of a machine

`machineInfo`, the storage and the two maps of the engine agree as long as a machine is always named
as it was when it was added, and ids are plain keys of the storage.
-/

namespace ZilkerSdk.Automation

open Config Lib Types

/-! ## What the engine has -/

/-- The engine has the machines of a relation between ids and addresses of specifications. -/
structure EngineHas (s : Service) (loaded : FileName → Nat → Prop) : Prop where
  distinct_specMap : DistinctKeys Prod.fst s.specMap
  distinct_crewMachines : DistinctKeys jsonKey s.crewMachines
  mem_specMap : ∀ id address, (id, address) ∈ s.specMap ↔ loaded id address
  mem_crewMachines : ∀ id, id ∈ s.crewMachines ↔ ∃ address, loaded id address

section

variable {s : Service} {loaded loaded' : FileName → Nat → Prop} {id : FileName}

section

variable (h : EngineHas s loaded)
include h

theorem EngineHas.congr (hiff : ∀ id address, loaded id address ↔ loaded' id address) :
    EngineHas s loaded' where
  __ := h
  mem_specMap := fun id address => (h.mem_specMap id address).trans (hiff id address)
  mem_crewMachines := fun id =>
    (h.mem_crewMachines id).trans (exists_congr fun address => hiff id address)

theorem EngineHas.without (hid : ∀ i a, loaded i a → i ≠ id) :
    EngineHas s fun i a => loaded i a ∧ i ≠ id :=
  h.congr fun i a => ⟨fun hloaded => ⟨hloaded, hid i a hloaded⟩, And.left⟩

theorem EngineHas.of_eq {s' : Service} (hspecMap : s'.specMap = s.specMap)
    (hcrew : s'.crewMachines = s.crewMachines) : EngineHas s' loaded := by
  obtain ⟨h₁, h₂, h₃, h₄⟩ := h
  rw [← hspecMap] at h₁ h₃
  rw [← hcrew] at h₂ h₄
  exact ⟨h₁, h₂, h₃, h₄⟩

/-- A machine whose name is not in the engine in any case is loaded. -/
theorem sheensEnable_eq {env : Environment} {specification : CString} (address : Nat)
    (hne : specification ≠ []) (hvalid : env.sheensIsValid specification = true)
    (hid : ∀ other a, loaded other a → jsonKey other ≠ jsonKey id) :
    ∃ s', sheensEnable env id specification address s = some (s', true) ∧
      s'.machineInfo = s.machineInfo ∧ s'.storage = s.storage ∧ s'.nextSpec = s.nextSpec ∧
      EngineHas s' fun i a => loaded i a ∨ i = id ∧ a = address := by
  have hnew : ∀ x ∈ s.specMap, x.1 ≠ id := by
    rintro ⟨other, a⟩ hx rfl
    exact hid other a ((h.mem_specMap other a).mp hx) rfl
  have hnewCrew : ∀ x ∈ s.crewMachines, jsonKey x ≠ jsonKey id := by
    intro x hx
    obtain ⟨a, ha⟩ := (h.mem_crewMachines x).mp hx
    exact hid x a ha
  unfold sheensEnable
  have hspec : ¬ (specification.isEmpty || !env.sheensIsValid specification) = true := by
    simp [hne, hvalid]
  rw [if_neg hspec, findMember_eq_none_iff.mpr hnew]
  refine ⟨_, rfl, rfl, rfl, rfl, ?_⟩
  constructor
  · exact distinctKeys_append h.distinct_specMap hnew
  · exact distinctKeys_append h.distinct_crewMachines hnewCrew
  · intro i a
    rw [List.mem_append, List.mem_singleton, Prod.mk.injEq, h.mem_specMap]
  · intro i
    rw [List.mem_append, List.mem_singleton, h.mem_crewMachines]
    constructor
    · rintro (⟨a, ha⟩ | rfl)
      · exact ⟨a, .inl ha⟩
      · exact ⟨address, .inr ⟨rfl, rfl⟩⟩
    · rintro ⟨a, ha | ⟨rfl, -⟩⟩
      · exact .inl ⟨a, ha⟩
      · exact .inr rfl

theorem EngineHas.sheensDisable (id : FileName) :
    EngineHas (sheensDisable id s) fun i a => loaded i a ∧ i ≠ id := by
  unfold Automation.sheensDisable
  split
  · rename_i hsome
    obtain ⟨⟨i, a⟩, hfind⟩ := Option.isSome_iff_exists.mp hsome
    obtain ⟨hmem, hi⟩ := of_findMember_eq_some hfind
    obtain rfl : i = id := hi
    -- the entry of the crew that is found is the one of the same name
    have hcrew : i ∈ s.crewMachines := (h.mem_crewMachines i).mpr ⟨a, (h.mem_specMap i a).mp hmem⟩
    constructor
    · exact h.distinct_specMap.deleteMember
    · exact h.distinct_crewMachines.deleteMember
    · intro j b
      rw [mem_deleteMember h.distinct_specMap, h.mem_specMap]
    · intro j
      rw [mem_deleteMember h.distinct_crewMachines, h.mem_crewMachines]
      constructor
      · rintro ⟨⟨b, hb⟩, hne⟩
        refine ⟨b, hb, ?_⟩
        rintro rfl
        exact hne rfl
      · rintro ⟨b, hb, hne⟩
        refine ⟨⟨b, hb⟩, fun hkey => hne ?_⟩
        exact h.distinct_crewMachines.eq ((h.mem_crewMachines j).mpr ⟨b, hb⟩) hcrew hkey
  · rename_i hnone
    have hnew := findMember_eq_none_iff.mp (Option.not_isSome_iff_eq_none.mp hnone)
    exact h.without fun i a hloaded => hnew (i, a) ((h.mem_specMap i a).mpr hloaded)

end

theorem sheensDisable_frame (id : FileName) (s : Service) :
    (sheensDisable id s).machineInfo = s.machineInfo ∧ (sheensDisable id s).storage = s.storage ∧
      (sheensDisable id s).nextSpec = s.nextSpec := by
  unfold sheensDisable
  split <;> exact ⟨rfl, rfl, rfl⟩

end

/-! ## What the storage has -/

/-- The storage has a printed machine for each machine, and no other values. -/
structure StorageHas (env : Environment) (storage : Namespace) (machines : List Machine) :
    Prop where
  tidy : Tidy storage.directory
  saved : ∀ machine ∈ machines,
    stored (storage.directory.files machine.id).toFiles = some (env.print machine.info)
  only : ∀ key : FileName, key.Plain → stored (storage.directory.files key).toFiles ≠ none →
    ∃ machine ∈ machines, machine.id = key

section

variable {env : Environment} {storage : Namespace} {machines machines' : List Machine}

/-- The files of one id are replaced by those of its new machine, if there is one. -/
theorem storageHas_put {id : FileName} {files : KeyFiles} (new : Option Machine)
    (h : StorageHas env storage machines) (hplain : id.Plain)
    (hplains : ∀ m ∈ machines, m.id.Plain) (hwhole : Whole files.toFiles)
    (hstored : stored files.toFiles = new.map fun m => env.print m.info)
    (hnew : ∀ m ∈ new, m.id = id)
    (hmem : ∀ m, m ∈ machines' ↔ m ∈ new ∨ m ∈ machines ∧ m.id ≠ id) :
    StorageHas env (some (storage.directory.put id files)) machines' where
  tidy := h.tidy.put hplain hwhole
  saved m hm := by
    show stored ((storage.directory.put id files).files m.id).toFiles = _
    obtain hm | ⟨hm, hne⟩ := (hmem m).mp hm
    · rw [hnew m hm, files_put_self, hstored, hm]
      rfl
    · rw [files_put_of_plain hplain (hplains m hm) hne]
      exact h.saved m hm
  only key hkey hkept := by
    change stored ((storage.directory.put id files).files key).toFiles ≠ none at hkept
    by_cases heq : key = id
    · rw [heq, files_put_self, hstored, Ne, Option.map_eq_none_iff] at hkept
      obtain ⟨m, hm⟩ := Option.ne_none_iff_exists'.mp hkept
      exact ⟨m, (hmem m).mpr (.inl hm), heq ▸ hnew m hm⟩
    · rw [files_put_of_plain hplain hkey heq] at hkept
      obtain ⟨m, hm, rfl⟩ := h.only key hkey hkept
      exact ⟨m, (hmem m).mpr (.inr ⟨hm, heq⟩), rfl⟩

theorem storageHas_saveMachine {machine : Machine} (h : StorageHas env storage machines)
    (hplain : machine.id.Plain) (hplains : ∀ m ∈ machines, m.id.Plain)
    (hmem : ∀ m, m ∈ machines' ↔ m = machine ∨ m ∈ machines ∧ m.id ≠ machine.id) :
    StorageHas env (saveMachine env machine storage) machines' := by
  apply storageHas_put (some machine) h hplain hplains
  · exact (h.tidy.whole _ hplain).storageSave (env.print_ne_nil _)
  · exact stored_of_original (original_safeFileSave rfl rfl) (env.print_ne_nil _)
  · simp
  · simpa [eq_comm] using hmem

theorem storageHas_delete {id : FileName} (h : StorageHas env storage machines) (hplain : id.Plain)
    (hplains : ∀ m ∈ machines, m.id.Plain)
    (hmem : ∀ m, m ∈ machines' ↔ m ∈ machines ∧ m.id ≠ id) :
    StorageHas env (storage.map fun directory => directory.put id
      (storageDelete ⟨true, true, true, true⟩ (storage.directory.files id)).1) machines' := by
  cases storage with
  | none =>
    exact ⟨h.tidy, fun m hm => h.saved m ((hmem m).mp hm).1, fun _ _ hkept => absurd rfl hkept⟩
  | some directory =>
    apply storageHas_put none h hplain hplains
    · exact (h.tidy.whole id hplain).storageDelete ⟨true, true, true, true⟩
    · rfl
    · simp
    · simpa using hmem

end

/-! ## The service -/

/-- The machines that should be in the engine. -/
def enabledMachines (machines : List Machine) (id : FileName) (address : Nat) : Prop :=
  ∃ machine ∈ machines, machine.id = id ∧ machine.info.enabled = true ∧ machine.specAt = address

structure Consistent (env : Environment) (s : Service) : Prop where
  plain : ∀ machine ∈ s.machineInfo, machine.id.Plain
  distinct : DistinctKeys Machine.key s.machineInfo
  valid : ∀ machine ∈ s.machineInfo, machine.info.specification ≠ [] ∧
    env.sheensIsValid machine.info.specification = true
  engine : EngineHas s (enabledMachines s.machineInfo)
  storage : StorageHas env s.storage s.machineInfo

/-- The id is written as it was when the machine was added. -/
def Exact (s : Service) (id : FileName) : Prop :=
  ∀ machine ∈ s.machineInfo, machine.key = jsonKey id → machine.id = id

section

variable {env : Environment} {s s' : Service} {id : FileName} {machine changed : Machine}

theorem find_machine_of_exact (hexact : Exact s id)
    (hfind : findMember Machine.key (jsonKey id) s.machineInfo = some machine) :
    machine ∈ s.machineInfo ∧ machine.id = id ∧
      ∀ m ∈ s.machineInfo, m.key ≠ jsonKey id ↔ m.id ≠ id := by
  obtain ⟨hmem, hkey⟩ := of_findMember_eq_some hfind
  refine ⟨hmem, hexact machine hmem hkey, fun m hm => ?_⟩
  constructor
  · rintro hne rfl
    exact hne rfl
  · intro hne hmkey
    exact hne (hexact m hm hmkey)

/-- The machines of other names do not change when a machine is replaced. -/
theorem enabledMachines_update {machines machines' : List Machine}
    (hmem : ∀ m, m ∈ machines' ↔ m = changed ∨ m ∈ machines ∧ m.id ≠ changed.id) (i : FileName)
    (a : Nat) :
    enabledMachines machines' i a ↔ (enabledMachines machines i a ∧ i ≠ changed.id) ∨
      (changed.info.enabled = true ∧ i = changed.id ∧ a = changed.specAt) := by
  constructor
  · rintro ⟨m, hm, rfl, henabled, rfl⟩
    obtain rfl | ⟨hm, hne⟩ := (hmem m).mp hm
    · exact .inr ⟨henabled, rfl, rfl⟩
    · exact .inl ⟨⟨m, hm, rfl, henabled, rfl⟩, hne⟩
  · rintro (⟨⟨m, hm, rfl, henabled, rfl⟩, hne⟩ | ⟨henabled, rfl, rfl⟩)
    · exact ⟨m, (hmem m).mpr (.inr ⟨hm, hne⟩), rfl, henabled, rfl⟩
    · exact ⟨changed, (hmem changed).mpr (.inl rfl), rfl, henabled, rfl⟩

/-- The service with one machine added or replaced, its engine not yet up to date. -/
structure Replaced (env : Environment) (s : Service) (changed : Machine) (s' : Service) : Prop where
  mem : ∀ m, m ∈ s'.machineInfo ↔ m = changed ∨ m ∈ s.machineInfo ∧ m.id ≠ changed.id
  distinct : DistinctKeys Machine.key s'.machineInfo
  storage : s'.storage = saveMachine env changed s.storage

theorem Replaced.of_frame {s'' : Service} (hr : Replaced env s changed s')
    (hinfo : s''.machineInfo = s'.machineInfo) (hstorage : s''.storage = s'.storage) :
    Replaced env s changed s'' := by
  obtain ⟨hmem, hdistinct, hsaved⟩ := hr
  rw [← hinfo] at hmem hdistinct
  exact ⟨hmem, hdistinct, hstorage.trans hsaved⟩

section

variable (hr : Replaced env s changed s') (h : Consistent env s) (hplain : changed.id.Plain)
  (hvalid : changed.info.specification ≠ [] ∧
    env.sheensIsValid changed.info.specification = true)

include hr h hplain hvalid

/-- If the engine is brought up to date, the service is consistent again. -/
theorem Replaced.consistent
    (hengine : EngineHas s' fun i a => (enabledMachines s.machineInfo i a ∧ i ≠ changed.id) ∨
      (changed.info.enabled = true ∧ i = changed.id ∧ a = changed.specAt)) :
    Consistent env s' where
  plain := by
    intro m hm
    obtain rfl | ⟨hm, -⟩ := (hr.mem m).mp hm
    · exact hplain
    · exact h.plain m hm
  distinct := hr.distinct
  valid := by
    intro m hm
    obtain rfl | ⟨hm, -⟩ := (hr.mem m).mp hm
    · exact hvalid
    · exact h.valid m hm
  engine := hengine.congr fun i a => (enabledMachines_update hr.mem i a).symm
  storage := by
    rw [hr.storage]
    exact storageHas_saveMachine h.storage hplain h.plain hr.mem

variable (hengine : EngineHas s' fun i a => enabledMachines s.machineInfo i a ∧ i ≠ changed.id)

include hengine

/-- The machine is loaded again, or it is disabled. -/
theorem Replaced.enable (hid : changed.id = id) (henabled : changed.info.enabled = true) :
    ∃ s'', sheensEnable env id changed.info.specification changed.specAt s' = some (s'', true) ∧
      s''.machineInfo = s'.machineInfo ∧ Consistent env s'' := by
  subst hid
  have hkeys : ∀ other a, enabledMachines s.machineInfo other a ∧ other ≠ changed.id →
      jsonKey other ≠ jsonKey changed.id := by
    rintro _ a ⟨⟨m, hm, rfl, -, -⟩, hne⟩ hkey
    have hm' : m ∈ s'.machineInfo := (hr.mem m).mpr (.inr ⟨hm, hne⟩)
    have hchanged : changed ∈ s'.machineInfo := (hr.mem changed).mpr (.inl rfl)
    exact hne (congrArg Machine.id (hr.distinct.eq hm' hchanged hkey))
  obtain ⟨s'', heq, hinfo, hstorage, -, hengine'⟩ :=
    sheensEnable_eq hengine changed.specAt hvalid.1 hvalid.2 hkeys
  refine ⟨s'', heq, hinfo, ?_⟩
  apply (hr.of_frame hinfo hstorage).consistent h hplain hvalid
  apply hengine'.congr
  intro i a
  simp only [henabled, true_and]

theorem Replaced.disabled (hdisabled : changed.info.enabled = false) : Consistent env s' := by
  apply hr.consistent h hplain hvalid
  apply hengine.congr
  intro i a
  simp only [hdisabled, Bool.false_eq_true, false_and, or_false]

end

section

variable (h : Consistent env s)
include h

/-! ## The calls -/

theorem consistent_addMachine {spec : Transcoded} {enabled : Bool} (hplain : id.Plain)
    (hvalid : spec.specification ≠ [] ∧ env.sheensIsValid spec.specification = true)
    (hnew : findMember Machine.key (jsonKey id) s.machineInfo = none) :
    ∃ s', automationServiceAddMachineInternal env id spec enabled s = some (s', true) ∧
      s'.machineInfo = s.machineInfo ++
        [⟨id, ⟨enabled, spec.specification, spec.original, spec.version⟩, s.nextSpec⟩] ∧
      Consistent env s' := by
  have hkeys := findMember_eq_none_iff.mp hnew
  have hne : ∀ m ∈ s.machineInfo, m.id ≠ id := by
    rintro m hm rfl
    exact hkeys m hm rfl
  let machine : Machine :=
    ⟨id, ⟨enabled, spec.specification, spec.original, spec.version⟩, s.nextSpec⟩
  let added : Service := { s with
    machineInfo := s.machineInfo ++ [machine]
    storage := saveMachine env machine s.storage
    nextSpec := s.nextSpec + 1 }
  have hadded : Replaced env s machine added := by
    refine ⟨fun m => ?_, distinctKeys_append h.distinct hkeys, rfl⟩
    rw [List.mem_append, List.mem_singleton, or_comm]
    exact or_congr_right ⟨fun hm => ⟨hm, hne m hm⟩, And.left⟩
  -- the engine has no machine with this id yet
  have hengine : EngineHas added fun i a => enabledMachines s.machineInfo i a ∧ i ≠ id := by
    have hsame : EngineHas added (enabledMachines s.machineInfo) := h.engine.of_eq rfl rfl
    apply hsame.without
    rintro _ _ ⟨m, hm, rfl, -⟩
    exact hne m hm
  have heq : automationServiceAddMachineInternal env id spec enabled s =
      if enabled then sheensEnable env id spec.specification machine.specAt added
      else some (sheensDisable id added, true) := by
    rw [automationServiceAddMachineInternal, hnew, if_neg (by simp [hvalid.1])]
  rw [heq]
  cases henabled : enabled with
  | true =>
    obtain ⟨s', henable, hinfo, hconsistent⟩ := hadded.enable h hplain hvalid hengine rfl henabled
    exact ⟨s', henable, by rw [hinfo, ← henabled], hconsistent⟩
  | false =>
    obtain ⟨hinfo, hstorage, -⟩ := sheensDisable_frame id added
    refine ⟨sheensDisable id added, rfl, by rw [hinfo, ← henabled], ?_⟩
    apply (hadded.of_frame hinfo hstorage).disabled h hplain hvalid _ henabled
    apply (hengine.sheensDisable id).congr
    intro i a
    exact ⟨And.left, fun h => ⟨h, h.2⟩⟩

theorem engine_of_disabled (hm : machine ∈ s.machineInfo)
    (hdisabled : machine.info.enabled = false) :
    EngineHas s fun i a => enabledMachines s.machineInfo i a ∧ i ≠ machine.id := by
  apply h.engine.without
  rintro _ _ ⟨m, hm', rfl, henabled, -⟩ hid
  have heq : m = machine := h.distinct.eq hm' hm (congrArg jsonKey hid)
  rw [heq, hdisabled] at henabled
  cases henabled

theorem consistent_removeMachine (hexact : Exact s id) :
    ∃ s' result, automationServiceRemoveMachine id s = some (s', result) ∧ Consistent env s' := by
  unfold automationServiceRemoveMachine
  cases hfind : findMember Machine.key (jsonKey id) s.machineInfo with
  | none => exact ⟨s, false, rfl, h⟩
  | some machine =>
    obtain ⟨hmachine, hid, hkey⟩ := find_machine_of_exact hexact hfind
    have hplain : id.Plain := hid ▸ h.plain machine hmachine
    have hmem : ∀ m, m ∈ deleteMember Machine.key (jsonKey id) s.machineInfo ↔
        m ∈ s.machineInfo ∧ m.id ≠ id := by
      intro m
      rw [mem_deleteMember h.distinct]
      exact and_congr_right fun hm => hkey m hm
    refine ⟨_, _, rfl, ?_⟩
    -- the state between the removal and `sheensDisable`
    generalize hremoved : ({ s with
      machineInfo := deleteMember Machine.key (jsonKey id) s.machineInfo
      storage := s.storage.map fun directory => directory.put id
        (storageDelete ⟨true, true, true, true⟩ (s.storage.directory.files id)).1 } : Service) =
          removed
    obtain ⟨hinfo, hstorage, -⟩ := sheensDisable_frame id removed
    have hengine : EngineHas removed (enabledMachines s.machineInfo) := by
      rw [← hremoved]
      exact h.engine.of_eq rfl rfl
    have hinfo' : (sheensDisable id removed).machineInfo =
        deleteMember Machine.key (jsonKey id) s.machineInfo := by
      rw [hinfo, ← hremoved]
    constructor
    · intro m hm
      rw [hinfo', hmem] at hm
      exact h.plain m hm.1
    · rw [hinfo']
      exact h.distinct.deleteMember
    · intro m hm
      rw [hinfo', hmem] at hm
      exact h.valid m hm.1
    -- the engine loses this machine, whether or not it was enabled
    · apply (hengine.sheensDisable id).congr
      intro i a
      rw [hinfo']
      constructor
      · rintro ⟨⟨m, hm, rfl, henabled, rfl⟩, hne⟩
        exact ⟨m, (hmem m).mpr ⟨hm, hne⟩, rfl, henabled, rfl⟩
      · rintro ⟨m, hm, rfl, henabled, rfl⟩
        obtain ⟨hm, hne⟩ := (hmem m).mp hm
        exact ⟨⟨m, hm, rfl, henabled, rfl⟩, hne⟩
    · rw [hinfo', hstorage, ← hremoved]
      exact storageHas_delete h.storage hplain h.plain hmem

variable (hexact : Exact s id)
  (hfind : findMember Machine.key (jsonKey id) s.machineInfo = some machine)
include hexact hfind

theorem mem_updateMachine (hid : changed.id = id) (m : Machine) :
    m ∈ updateMember Machine.key (jsonKey id) (fun _ => changed) s.machineInfo ↔
      m = changed ∨ m ∈ s.machineInfo ∧ m.id ≠ changed.id := by
  obtain ⟨hmachine, -, hkey⟩ := find_machine_of_exact hexact hfind
  rw [mem_updateMember h.distinct, hid]
  constructor
  · rintro (⟨hm, hne⟩ | ⟨x, -, -, rfl⟩)
    · exact .inr ⟨hm, (hkey m hm).mp hne⟩
    · exact .inl rfl
  · rintro (rfl | ⟨hm, hne⟩)
    · exact .inr ⟨machine, hmachine, (of_findMember_eq_some hfind).2, rfl⟩
    · exact .inl ⟨hm, (hkey m hm).mpr hne⟩

/-- A machine that is saved under its own name. -/
theorem replaced_update (hid : changed.id = id)
    (hinfo : s'.machineInfo =
      updateMember Machine.key (jsonKey id) (fun _ => changed) s.machineInfo)
    (hstorage : s'.storage = saveMachine env changed s.storage) : Replaced env s changed s' := by
  refine ⟨?_, ?_, hstorage⟩
  · rw [hinfo]
    exact mem_updateMachine h hexact hfind hid
  · rw [hinfo]
    exact h.distinct.updateMember fun _ _ => congrArg jsonKey hid

theorem consistent_setMachineEnabled (enabled : Bool) :
    ∃ s', automationServiceSetMachineEnabled env id enabled s = some (s', true) ∧
      s'.machineInfo = updateMember Machine.key (jsonKey id)
        (fun _ => { machine with info := { machine.info with enabled := enabled } })
        s.machineInfo ∧
      Consistent env s' := by
  obtain ⟨hmachine, hid, -⟩ := find_machine_of_exact hexact hfind
  let changed : Machine := { machine with info := { machine.info with enabled := enabled } }
  by_cases hsame : machine.info.enabled = enabled
  · have hchanged : changed = machine := by simp only [changed, ← hsame]
    refine ⟨s, ?_, ?_, h⟩
    · rw [automationServiceSetMachineEnabled, hfind]
      exact if_pos hsame
    · show s.machineInfo = updateMember Machine.key (jsonKey id) (fun _ => changed) s.machineInfo
      rw [hchanged, updateMember_eq_self hfind]
  -- the machine is saved with its new flag, and then loaded or unloaded
  have hplain : changed.id.Plain := h.plain machine hmachine
  have hvalid := h.valid machine hmachine
  let saved : Service := { s with
    machineInfo := updateMember Machine.key (jsonKey id) (fun _ => changed) s.machineInfo
    storage := saveMachine env changed s.storage }
  have hsaved : Replaced env s changed saved := replaced_update h hexact hfind hid rfl rfl
  have heq : automationServiceSetMachineEnabled env id enabled s =
      if enabled then
        (sheensEnable env id machine.info.specification machine.specAt saved).map fun r =>
          (r.1, true)
      else some (sheensDisable id saved, true) := by
    rw [automationServiceSetMachineEnabled, hfind]
    exact if_neg hsame
  rw [heq]
  cases henabled : enabled with
  | true =>
    have hdisabled : machine.info.enabled = false := by
      rw [henabled] at hsame
      exact Bool.eq_false_iff.mpr hsame
    have hengine : EngineHas saved fun i a => enabledMachines s.machineInfo i a ∧ i ≠ changed.id :=
      (engine_of_disabled h hmachine hdisabled).of_eq rfl rfl
    obtain ⟨s', henable, hinfo, hconsistent⟩ := hsaved.enable h hplain hvalid hengine hid henabled
    refine ⟨s', ?_, by rw [hinfo, ← henabled], hconsistent⟩
    rw [if_pos rfl, henable]
    rfl
  | false =>
    obtain ⟨hinfo, hstorage, -⟩ := sheensDisable_frame id saved
    refine ⟨sheensDisable id saved, rfl, by rw [hinfo, ← henabled], ?_⟩
    have hengine : EngineHas saved (enabledMachines s.machineInfo) := h.engine.of_eq rfl rfl
    apply (hsaved.of_frame hinfo hstorage).disabled h hplain hvalid _ henabled
    rw [hid]
    exact hengine.sheensDisable id

theorem consistent_setMachineSpecification {spec : Transcoded}
    (hvalid : spec.specification ≠ [] ∧ env.sheensIsValid spec.specification = true) :
    ∃ s', automationServiceSetMachineSpecification env id spec s = some s' ∧
      s'.machineInfo = updateMember Machine.key (jsonKey id)
        (fun _ => ⟨machine.id,
          ⟨machine.info.enabled, spec.specification,
            spec.original.or machine.info.originalSpecification, spec.version⟩, s.nextSpec⟩)
        s.machineInfo ∧
      Consistent env s' := by
  obtain ⟨hmachine, hid, -⟩ := find_machine_of_exact hexact hfind
  let changed : Machine := ⟨machine.id,
    ⟨machine.info.enabled, spec.specification,
      spec.original.or machine.info.originalSpecification, spec.version⟩, s.nextSpec⟩
  have hplain : changed.id.Plain := h.plain machine hmachine
  let disabled := if machine.info.enabled then sheensDisable id s else s
  let saved : Service := { disabled with
    machineInfo := updateMember Machine.key (jsonKey id) (fun _ => changed) s.machineInfo
    storage := saveMachine env changed s.storage
    nextSpec := s.nextSpec + 1 }
  -- the engine still has the others only, and the map and the storage the changed machine
  have hsaved : Replaced env s changed saved := replaced_update h hexact hfind hid rfl rfl
  have hengine : EngineHas saved fun i a =>
      enabledMachines s.machineInfo i a ∧ i ≠ changed.id := by
    have hdisabled : EngineHas disabled fun i a =>
        enabledMachines s.machineInfo i a ∧ i ≠ machine.id := by
      cases henabled : machine.info.enabled with
      | true =>
        simp only [disabled, henabled, if_true]
        rw [hid]
        exact h.engine.sheensDisable id
      | false =>
        simp only [disabled, henabled, Bool.false_eq_true, if_false]
        exact engine_of_disabled h hmachine henabled
    exact hdisabled.of_eq rfl rfl
  have heq : automationServiceSetMachineSpecification env id spec s =
      if machine.info.enabled then
        (sheensEnable env id spec.specification changed.specAt saved).map Prod.fst
      else some saved := by
    rw [automationServiceSetMachineSpecification, hfind, if_neg (by simp [hvalid.1])]
  rw [heq]
  cases henabled : machine.info.enabled with
  | true =>
    obtain ⟨s', henable, hinfo, hconsistent⟩ := hsaved.enable h hplain hvalid hengine hid henabled
    refine ⟨s', ?_, by rw [hinfo, ← henabled], hconsistent⟩
    rw [if_pos rfl, henable]
    rfl
  | false =>
    refine ⟨saved, rfl, by rw [← henabled], ?_⟩
    exact hsaved.disabled h hplain hvalid hengine henabled

end

end

/-! ## Runs -/

inductive RegistryCall where
  | addMachine (id : FileName) (specification : CString) (enabled : Bool)
  | removeMachine (id : FileName)
  | setMachineEnabled (id : FileName) (enabled : Bool)
  | setMachineSpecification (id : FileName) (spec : Transcoded)

section

variable (env : Environment) (icrules : Transcoder)

def registryStep (s : Service) : RegistryCall → Option (Service × Bool)
  | .addMachine id specification enabled =>
    automationServiceAddMachine env icrules id specification enabled s
  | .removeMachine id => automationServiceRemoveMachine id s
  | .setMachineEnabled id enabled => automationServiceSetMachineEnabled env id enabled s
  | .setMachineSpecification id spec =>
    (automationServiceSetMachineSpecification env id spec s).map fun s' => (s', true)

/-- The engine accepts the specification. -/
def Accepted (specification : CString) : Prop :=
  specification ≠ [] ∧ env.sheensIsValid specification = true

/-- New machines have plain ids, machines that are there are named exactly, and the engine accepts
the specifications. -/
def ProperCall (s : Service) : RegistryCall → Prop
  | .addMachine id specification _ =>
    id.Plain ∧ ∀ spec ∈ transcodeSpecification env icrules specification,
      Accepted env spec.specification
  | .removeMachine id => Exact s id
  | .setMachineEnabled id _ => Exact s id
  | .setMachineSpecification id spec => Exact s id ∧ Accepted env spec.specification

instance (s : Service) (id : FileName) : Decidable (Exact s id) :=
  inferInstanceAs (Decidable (∀ machine ∈ s.machineInfo, _ → _))

instance (specification : CString) : Decidable (Accepted env specification) :=
  inferInstanceAs (Decidable (_ ∧ _))

instance (s : Service) (call : RegistryCall) : Decidable (ProperCall env icrules s call) := by
  delta ProperCall
  split <;> infer_instance

end

/-- No machines. -/
def emptyService : Service := ⟨[], none, [], [], 0⟩

theorem consistent_emptyService (env : Environment) : Consistent env emptyService where
  plain := nofun
  distinct := List.nodup_nil
  valid := nofun
  engine := by
    refine ⟨List.nodup_nil, List.nodup_nil, fun id address => ?_, fun id => ?_⟩
    all_goals simp [enabledMachines, emptyService]
  storage := ⟨tidy_empty, nofun, fun _ _ h => absurd rfl h⟩

section

variable {env : Environment} {icrules : Transcoder} {s : Service}

theorem consistent_registryStep {call : RegistryCall} (h : Consistent env s)
    (hcall : ProperCall env icrules s call) :
    ∃ s' result, registryStep env icrules s call = some (s', result) ∧ Consistent env s' := by
  cases call with
  | addMachine id specification enabled =>
    obtain ⟨hplain, haccepted⟩ := hcall
    show ∃ s' result, automationServiceAddMachine env icrules id specification enabled s =
      some (s', result) ∧ Consistent env s'
    unfold automationServiceAddMachine
    cases hspec : transcodeSpecification env icrules specification with
    | none => exact ⟨s, false, rfl, h⟩
    | some spec =>
      cases hfind : findMember Machine.key (jsonKey id) s.machineInfo with
      | none =>
        obtain ⟨s', heq, -, hs'⟩ :=
          @consistent_addMachine env s id h spec enabled hplain (haccepted spec hspec) hfind
        exact ⟨s', true, heq, hs'⟩
      | some machine =>
        -- there is a machine with this id, and the call is refused
        refine ⟨s, false, ?_, h⟩
        show automationServiceAddMachineInternal env id spec enabled s = _
        rw [automationServiceAddMachineInternal, hfind]
        exact if_pos (Bool.or_true _)
  | removeMachine id => exact consistent_removeMachine h hcall
  | setMachineEnabled id enabled =>
    cases hfind : findMember Machine.key (jsonKey id) s.machineInfo with
    | none =>
      refine ⟨s, false, ?_, h⟩
      rw [registryStep, automationServiceSetMachineEnabled, hfind]
    | some machine =>
      obtain ⟨s', heq, -, hs'⟩ := consistent_setMachineEnabled h hcall hfind enabled
      exact ⟨s', true, heq, hs'⟩
  | setMachineSpecification id spec =>
    unfold registryStep
    cases hfind : findMember Machine.key (jsonKey id) s.machineInfo with
    | none =>
      refine ⟨s, true, ?_, h⟩
      dsimp only
      rw [automationServiceSetMachineSpecification, hfind]
      split <;> rfl
    | some machine =>
      obtain ⟨s', heq, -, hs'⟩ := consistent_setMachineSpecification h hcall.1 hfind hcall.2
      refine ⟨s', true, ?_, hs'⟩
      dsimp only
      rw [heq]
      rfl

/-- The engine has exactly the enabled machines, with the texts of `machineInfo`, and the storage
has exactly the machines. -/
def InStep (s : Service) : Prop :=
  (∀ id address, (id, address) ∈ s.specMap ∧ id ∈ s.crewMachines ↔
    ∃ machine ∈ s.machineInfo, machine.id = id ∧ machine.info.enabled = true ∧
      machine.specAt = address) ∧
  ∀ name, name ∈ (storageGetKeys s.storage).getD [] ↔
    ∃ machine ∈ s.machineInfo, machine.id.name = name

theorem Consistent.inStep (h : Consistent env s) : InStep s := by
  constructor
  · intro id address
    rw [h.engine.mem_specMap, h.engine.mem_crewMachines]
    exact ⟨And.left, fun hloaded => ⟨hloaded, address, hloaded⟩⟩
  · intro name
    obtain ⟨-, hkeys⟩ := listsKeys_of_tidy h.storage.tidy
    rw [hkeys name .works LoadIo.reads_works]
    simp only [Namespace.load, storageLoad_eq LoadIo.reads_works]
    constructor
    · rintro ⟨key, hplain, rfl, hstored⟩
      obtain ⟨m, hm, rfl⟩ := h.storage.only key hplain hstored
      exact ⟨m, hm, rfl⟩
    · rintro ⟨m, hm, rfl⟩
      refine ⟨m.id, h.plain m hm, rfl, ?_⟩
      rw [h.storage.saved m hm]
      exact Option.some_ne_none _

/-- Calls that name machines exactly are possible, and after them the four places agree. -/
theorem registry_in_step {calls : List RegistryCall}
    (hcalls : Guarded (registryStep env icrules) (ProperCall env icrules) emptyService calls) :
    ∃ s results, run (registryStep env icrules) emptyService calls = some (s, results) ∧
      InStep s := by
  obtain ⟨s, results, hrun, hs⟩ :=
    run_progress (fun _ _ h hcall => consistent_registryStep h hcall) (consistent_emptyService env)
      hcalls
  exact ⟨s, results, hrun, hs.inStep⟩

end

/-- No legacy rules. -/
def noRules : Transcoder := ⟨fun _ => false, fun _ => none, 1⟩

def upperId : FileName := ⟨"A".toList, by decide⟩

theorem registry_in_step_add_disable :
    ∃ s results, run (registryStep plainEnvironment noRules) emptyService
        [.addMachine upperId ['\x7b'] true, .setMachineEnabled upperId false] = some (s, results) ∧
      InStep s :=
  registry_in_step (by decide +kernel)

/-- A machine is added and enabled, and then disabled under its name in another case.  In
`machineInfo` it is disabled, but the engine still has it. -/
theorem other_case_leaves_engine_loaded :
    ∃ s, run (registryStep plainEnvironment noRules) emptyService
        [.addMachine upperId ['\x7b'] true, .setMachineEnabled keyA false] =
          some (s, [true, true]) ∧
      ((upperId, 0) ∈ s.specMap ∧ upperId ∈ s.crewMachines) ∧
      (∀ machine ∈ s.machineInfo, machine.info.enabled = false) ∧ ¬ InStep s := by
  refine ⟨_, rfl, ?_, ?_, ?_⟩
  · decide
  · decide
  · intro h
    have hloaded := (h.1 upperId 0).mp (by decide)
    revert hloaded
    decide

end ZilkerSdk.Automation

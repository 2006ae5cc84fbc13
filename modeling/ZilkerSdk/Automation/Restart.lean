import ZilkerSdk.Automation.Registry

/-!
# Requests and restarts

Model of the handlers for requests in `automationServiceIpcHandler.c` and of `loadMachines`, which
reads the machines when the service starts.

A machine is saved with the specification for the engine, with the specification it was transcoded
from and with the version of the transcoder.  When it is loaded and the transcoder has another
version, the original specification is transcoded again.  But a specification that was passed
through does not replace the original one.
-/

namespace ZilkerSdk.Automation

open Config Lib Types List Option

/-! ## Requests -/

/-- `AutomationRequest` for a machine -/
structure Request where
  specification : CString
  enabled : Bool

section

variable (env : Environment) (icrules : Transcoder)

def handleCreateAutomationRequest (id : FileName) (input : Request) (s : Service) :
    Option (Service × Bool) :=
  if input.specification.isEmpty then some (s, false)
  else automationServiceAddMachine env icrules id input.specification input.enabled s

/-- `handle_SET_AUTOMATION_request`.  A specification that cannot be transcoded is only logged. -/
def handleSetAutomationRequest (id : FileName) (input : Request) (s : Service) :
    Option (Service × Bool) :=
  (automationServiceSetMachineEnabled env id input.enabled s).bind fun r =>
    if r.2 && !input.specification.isEmpty then
      match transcodeSpecification env icrules input.specification with
      | none => some (r.1, true)
      | some spec =>
        (automationServiceSetMachineSpecification env id spec r.1).map fun s' => (s', true)
    else some r

/-- A machine is created and then edited. -/
def handleRequests (id : FileName) (create : Request) (edits : List Request) (s : Service) :
    Option (Service × List Bool) :=
  (handleCreateAutomationRequest env icrules id create s).bind fun r =>
    (run (fun s input => handleSetAutomationRequest env icrules id input s) r.1 edits).map
      fun r' => (r'.1, r.2 :: r'.2)

/-! ## Loading -/

/-- The part of `loadMachine` that transcodes again: the machine, and whether it has changed. -/
def retranscode (info : MachineInfo) : MachineInfo × Bool :=
  match info.originalSpecification with
  | none => (info, false)
  | some original =>
    match automationServiceGetTranscoder env icrules original with
    | none => (info, false)
    | some decoder =>
      if decoder.version icrules ≠ info.transcoderVersion then
        match csltTranscode icrules original decoder with
        | none => (info, false)
        | some specification =>
          ({ info with
            specification := specification
            transcoderVersion := decoder.version icrules }, true)
      else (info, false)

/-- The part of `loadMachine` that adds the machine to `machineInfo` and saves
it if it has changed. -/
def addLoaded (id : FileName) (info : MachineInfo) (s : Service) : Service :=
  let machine : Machine := ⟨id, (retranscode env icrules info).1, s.nextSpec⟩
  { s with
    machineInfo := s.machineInfo ++ [machine]
    storage :=
      if (retranscode env icrules info).2 then saveMachine env machine s.storage else s.storage
    nextSpec := s.nextSpec + 1 }

/-- The storage after `storageLoad` -/
def afterLoad (id : FileName) (s : Service) : Service :=
  { s with
    storage := s.storage.map fun directory =>
      directory.put id (storageLoad .works (s.storage.directory.files id)).1 }

def loadMachine (id : FileName) (s : Service) : Option Service :=
  match (storageLoad .works (s.storage.directory.files id)).2.bind env.parse with
  | none => some (afterLoad id s)
  | some info =>
    let added := addLoaded env icrules id info (afterLoad id s)
    if (retranscode env icrules info).1.enabled then
      (sheensEnable env id (retranscode env icrules info).1.specification s.nextSpec added).map
        Prod.fst
    else some added

/-- The file name with a given text, if it is one. -/
def FileName.ofName? (name : CString) : Option FileName :=
  if h : name ≠ [] ∧ name ≠ ['.'] ∧ name ≠ ['.', '.'] ∧ '/' ∉ name then some ⟨name, h⟩ else none

/-- `loadMachines`, in a new process: only the storage is left. -/
def loadMachines (storage : Namespace) : Option Service :=
  let machineIds := ((storageGetKeys storage).getD []).filterMap FileName.ofName?
  machineIds.foldlM (fun s id => loadMachine env icrules id s)
    { emptyService with storage := storage }

end

/-- The specification that the engine runs for a machine. -/
def Service.engineSpec (s : Service) (id : FileName) : Option CString :=
  if id ∈ s.crewMachines then (findMember Prod.fst id s.specMap).bind fun e => s.specText e.2
  else none

/-! ## What is loaded -/

theorem ofName?_name (id : FileName) : FileName.ofName? id.name = some id := dif_pos id.proper

theorem name_of_ofName? {name : CString} {id : FileName} (h : FileName.ofName? name = some id) :
    id.name = name := by
  obtain ⟨_, ⟨⟩⟩ := dite_none_right_eq_some.mp h
  rfl

/-- What loading some machines does to a service that has not loaded them. -/
structure Loads (ids : List FileName) (s s' : Service) : Prop where
  machineInfo : ∃ l, s'.machineInfo = s.machineInfo ++ l
  bounded : (∀ m ∈ s.machineInfo, m.specAt < s.nextSpec) →
    ∀ m ∈ s'.machineInfo, m.specAt < s'.nextSpec
  specMap : ∃ l, s'.specMap = s.specMap ++ l ∧ ∀ e ∈ l, e.1 ∈ ids
  crewMachines : ∃ l, s'.crewMachines = s.crewMachines ++ l
  files : ∀ other : FileName, other.Plain → other ∉ ids →
    s'.storage.directory.files other = s.storage.directory.files other

section

variable {ids ids' : List FileName} {id : FileName} {s s' s'' : Service}

theorem Loads.refl (ids : List FileName) (s : Service) : Loads ids s s where
  machineInfo := ⟨[], (append_nil _).symm⟩
  bounded := fun h => h
  specMap := ⟨[], (append_nil _).symm, nofun⟩
  crewMachines := ⟨[], (append_nil _).symm⟩
  files := fun _ _ _ => rfl

theorem Loads.trans (h : Loads ids s s') (h' : Loads ids' s' s'') : Loads (ids ++ ids') s s'' where
  machineInfo := by
    obtain ⟨l, hl⟩ := h.machineInfo
    obtain ⟨l', hl'⟩ := h'.machineInfo
    exact ⟨l ++ l', by rw [hl', hl, append_assoc]⟩
  bounded := fun hs => h'.bounded (h.bounded hs)
  specMap := by
    obtain ⟨l, hl, hids⟩ := h.specMap
    obtain ⟨l', hl', hids'⟩ := h'.specMap
    refine ⟨l ++ l', by rw [hl', hl, append_assoc], fun e he => ?_⟩
    rw [mem_append] at he ⊢
    exact he.imp (hids e) (hids' e)
  crewMachines := by
    obtain ⟨l, hl⟩ := h.crewMachines
    obtain ⟨l', hl'⟩ := h'.crewMachines
    exact ⟨l ++ l', by rw [hl', hl, append_assoc]⟩
  files := by
    intro other hplain hother
    rw [mem_append, not_or] at hother
    rw [h'.files other hplain hother.2, h.files other hplain hother.1]

variable {env : Environment} {icrules : Transcoder}

/-- A machine that is not in the engine is loaded if its specification is accepted. -/
theorem sheensEnable_new {specification : CString} {address : Nat}
    (hnew : ∀ e ∈ s.specMap, e.1 ≠ id) :
    sheensEnable env id specification address s =
      if Accepted env specification then
        some ({ s with
          crewMachines := s.crewMachines ++ [id]
          specMap := s.specMap ++ [(id, address)] }, true)
      else some (s, false) := by
  unfold sheensEnable
  rw [findMember_eq_none_iff.mpr hnew]
  split
  · rename_i h
    rw [if_neg]
    simpa [Accepted, or_iff_not_imp_left] using h
  · rename_i h
    rw [if_pos]
    simpa [Accepted] using h

variable {info : MachineInfo}

theorem loads_addLoaded (hplain : id.Plain) :
    Loads [id] s (addLoaded env icrules id info s) where
  __ := Loads.refl [id] s
  machineInfo := ⟨_, rfl⟩
  bounded := by
    intro hs m hm
    obtain hm | hm := mem_append.mp hm
    · exact Nat.lt_succ_of_lt (hs m hm)
    · rw [mem_singleton.mp hm]
      exact Nat.lt_succ_self _
  files := by
    intro other hother hne
    unfold addLoaded
    split
    · exact files_put_of_plain hplain hother (ne_of_not_mem_cons hne)
    · rfl

/-- Restoring a backup while loading touches only the files of the key. -/
theorem loads_afterLoad (hplain : id.Plain) (s : Service) : Loads [id] s (afterLoad id s) where
  __ := Loads.refl [id] s
  files := by
    intro other hother hne
    unfold afterLoad
    cases hstorage : s.storage with
    | none => rfl
    | some directory => exact files_put_of_plain hplain hother (ne_of_not_mem_cons hne)

theorem Loads.mono (h : Loads ids s s') (hids : ∀ id ∈ ids, id ∈ ids') : Loads ids' s s' where
  __ := h
  specMap := by
    obtain ⟨l, hl, hl'⟩ := h.specMap
    exact ⟨l, hl, fun e he => hids e.1 (hl' e he)⟩
  files := fun other hplain hother => h.files other hplain fun hmem => hother (hids other hmem)

/-- One of three states comes out of loading a machine. -/
theorem loadMachine_eq (hnew : ∀ e ∈ s.specMap, e.1 ≠ id) :
    loadMachine env icrules id s = some
      (match (storageLoad .works (s.storage.directory.files id)).2.bind env.parse with
      | none => afterLoad id s
      | some info =>
        let added := addLoaded env icrules id info (afterLoad id s)
        if (retranscode env icrules info).1.enabled = true ∧
            Accepted env (retranscode env icrules info).1.specification then
          { added with
            crewMachines := s.crewMachines ++ [id]
            specMap := s.specMap ++ [(id, s.nextSpec)] }
        else added) := by
  unfold loadMachine
  cases (storageLoad .works (s.storage.directory.files id)).2.bind env.parse with
  | none => rfl
  | some info =>
    have hnew' : ∀ e ∈ (addLoaded env icrules id info (afterLoad id s)).specMap, e.1 ≠ id := hnew
    dsimp only
    rw [sheensEnable_new hnew']
    by_cases henabled : (retranscode env icrules info).1.enabled = true
    · by_cases haccepted : Accepted env (retranscode env icrules info).1.specification
      · rw [if_pos henabled, if_pos haccepted, if_pos ⟨henabled, haccepted⟩]
        rfl
      · rw [if_pos henabled, if_neg haccepted, if_neg fun h => haccepted h.2]
        rfl
    · rw [if_neg henabled, if_neg fun h => henabled h.1]

theorem loads_loadMachine (hplain : id.Plain) (hnew : ∀ e ∈ s.specMap, e.1 ≠ id) :
    ∃ s', loadMachine env icrules id s = some s' ∧ Loads [id] s s' := by
  refine ⟨_, loadMachine_eq hnew, ?_⟩
  have htwice : ∀ {s₁ s₂ s₃ : Service}, Loads [id] s₁ s₂ → Loads [id] s₂ s₃ → Loads [id] s₁ s₃ :=
    fun h h' => (h.trans h').mono (by simp)
  have hafter := loads_afterLoad hplain s
  cases (storageLoad .works (s.storage.directory.files id)).2.bind env.parse with
  | none => exact hafter
  | some info =>
    have hadded := htwice hafter (@loads_addLoaded id _ env icrules info hplain)
    dsimp only
    split
    · exact htwice hadded { Loads.refl [id] _ with
        specMap := ⟨[(id, s.nextSpec)], rfl, by simp⟩
        crewMachines := ⟨[id], rfl⟩ }
    · exact hadded

theorem enabled_retranscode (info : MachineInfo) :
    (retranscode env icrules info).1.enabled = info.enabled := by
  fun_cases retranscode env icrules info <;> rfl

/-- A machine that was saved is loaded, and the engine runs it if it is enabled. -/
theorem loadMachine_saved (hnew : ∀ e ∈ s.specMap, e.1 ≠ id)
    (hstored : stored (s.storage.directory.files id).toFiles = some (env.print info))
    (henabled : info.enabled = true)
    (haccepted : Accepted env (retranscode env icrules info).1.specification)
    (heq : loadMachine env icrules id s = some s') :
    s'.machineInfo = s.machineInfo ++ [⟨id, (retranscode env icrules info).1, s.nextSpec⟩] ∧
      s'.specMap = s.specMap ++ [(id, s.nextSpec)] ∧ id ∈ s'.crewMachines := by
  have hload :
      (storageLoad .works (s.storage.directory.files id)).2.bind env.parse = some info := by
    rw [storageLoad_eq LoadIo.reads_works, hstored]
    exact env.parse_print info
  have henabled' : (retranscode env icrules info).1.enabled = true :=
    (enabled_retranscode info).trans henabled
  rw [loadMachine_eq hnew, hload] at heq
  dsimp only at heq
  rw [if_pos ⟨henabled', haccepted⟩] at heq
  cases heq
  exact ⟨rfl, rfl, mem_append_right _ (mem_singleton_self id)⟩

/-! ## A restart -/

/-- What was loaded last is run, and it stays so while other machines are loaded. -/
theorem engineSpec_of_loads {s₁ s₂ s₃ : Service}
    (hnew : ∀ e ∈ s₁.specMap, e.1 ≠ id) (hbounded : ∀ m ∈ s₁.machineInfo, m.specAt < s₁.nextSpec)
    (hinfo : s₂.machineInfo = s₁.machineInfo ++ [⟨id, info, s₁.nextSpec⟩])
    (hspecMap : s₂.specMap = s₁.specMap ++ [(id, s₁.nextSpec)]) (hcrew : id ∈ s₂.crewMachines)
    (hloads : Loads ids s₂ s₃) : s₃.engineSpec id = some info.specification := by
  obtain ⟨machines, hmachines⟩ := hloads.machineInfo
  obtain ⟨entries, hentries, -⟩ := hloads.specMap
  obtain ⟨crew, hcrew'⟩ := hloads.crewMachines
  have hmem : id ∈ s₃.crewMachines := by
    rw [hcrew']
    exact mem_append_left _ hcrew
  have hfind : findMember Prod.fst id s₃.specMap = some (id, s₁.nextSpec) := by
    have hnone : s₁.specMap.find? (fun e => e.1 = id) = none := findMember_eq_none_iff.mpr hnew
    rw [findMember, hentries, hspecMap, append_assoc, find?_append, hnone]
    simp
  have htext : s₃.specText s₁.nextSpec = some info.specification := by
    have hnone : s₁.machineInfo.find? (fun m => m.specAt = s₁.nextSpec) = none := by
      rw [find?_eq_none]
      intro m hm
      simpa using Nat.ne_of_lt (hbounded m hm)
    rw [Service.specText, hmachines, hinfo, append_assoc, find?_append, hnone]
    simp
  rw [Service.engineSpec, if_pos hmem, hfind]
  exact htext

/-- All machines are loaded, and the engine runs those that were saved and are enabled. -/
theorem loads_foldlM (hplain : ∀ id ∈ ids, id.Plain) (hnodup : ids.Nodup)
    (hnew : ∀ e ∈ s.specMap, e.1 ∉ ids) (hbounded : ∀ m ∈ s.machineInfo, m.specAt < s.nextSpec) :
    ∃ s', ids.foldlM (fun s id => loadMachine env icrules id s) s = some s' ∧ Loads ids s s' ∧
      ∀ id ∈ ids, ∀ info, stored (s.storage.directory.files id).toFiles = some (env.print info) →
        info.enabled = true → Accepted env (retranscode env icrules info).1.specification →
        s'.engineSpec id = some (retranscode env icrules info).1.specification := by
  induction ids generalizing s with
  | nil => exact ⟨s, rfl, Loads.refl [] s, nofun⟩
  | cons id ids ih =>
    obtain ⟨hid, hnodup⟩ := nodup_cons.mp hnodup
    obtain ⟨hplainId, hplain⟩ := forall_mem_cons.mp hplain
    have hnewId : ∀ e ∈ s.specMap, e.1 ≠ id := fun e he => ne_of_not_mem_cons (hnew e he)
    obtain ⟨s₁, heq, hloads⟩ := @loads_loadMachine id s env icrules hplainId hnewId
    -- the machines that are loaded later are not in the engine yet
    have hnew₁ : ∀ e ∈ s₁.specMap, e.1 ∉ ids := by
      intro e he
      obtain ⟨l, hl, hl'⟩ := hloads.specMap
      rw [hl, mem_append] at he
      obtain he | he := he
      · exact not_mem_of_not_mem_cons (hnew e he)
      · rw [mem_singleton.mp (hl' e he)]
        exact hid
    obtain ⟨s', heq', hloads', hengine⟩ := ih hplain hnodup hnew₁ (hloads.bounded hbounded)
    refine ⟨s', ?_, hloads.trans hloads', forall_mem_cons.mpr ⟨?_, ?_⟩⟩
    · rw [foldlM_cons, heq]
      exact heq'
    · intro info hstored henabled haccepted
      obtain ⟨hinfo, hspecMap, hcrew⟩ := loadMachine_saved hnewId hstored henabled haccepted heq
      exact engineSpec_of_loads hnewId hbounded hinfo hspecMap hcrew hloads'
    · intro other hother info hstored
      have hne : other ∉ [id] := fun hmem => hid (mem_singleton.mp hmem ▸ hother)
      rw [← hloads.files other (hplain other hother) hne] at hstored
      exact hengine other hother info hstored

end

section

variable {storage : Namespace} {id : FileName}

/-- In a tidy namespace, the ids that are loaded are plain and different. -/
theorem machineIds_of_tidy (h : Tidy storage.directory) :
    (((storageGetKeys storage).getD []).filterMap FileName.ofName?).Nodup ∧
      ∀ id : FileName, id ∈ ((storageGetKeys storage).getD []).filterMap FileName.ofName? ↔
        id.Plain ∧ stored (storage.directory.files id).toFiles ≠ none := by
  obtain ⟨hnodup, hkeys⟩ := listsKeys_of_tidy h
  constructor
  · apply hnodup.filterMap
    intro name name' id hname hname'
    exact (name_of_ofName? hname).symm.trans (name_of_ofName? hname')
  · intro id
    rw [mem_filterMap]
    constructor
    · rintro ⟨name, hname, hid⟩
      obtain ⟨key, hplain, rfl, hload⟩ := (hkeys name .works LoadIo.reads_works).mp hname
      cases (ofName?_name key).symm.trans hid
      rw [Namespace.load, storageLoad_eq LoadIo.reads_works] at hload
      exact ⟨hplain, hload⟩
    · rintro ⟨hplain, hstored⟩
      refine ⟨id.name, ?_, ofName?_name id⟩
      refine (hkeys id.name .works LoadIo.reads_works).mpr ⟨id, hplain, rfl, ?_⟩
      rwa [Namespace.load, storageLoad_eq LoadIo.reads_works]

end

/-! ## What requests leave -/

/-- The transcoder for rules.  Its results are specifications for the engine, and no text is both a
rule and a specification for the engine. -/
structure Rules (env : Environment) extends Transcoder where
  accepted : ∀ specification transcoded, transcode specification = some transcoded →
    Accepted env transcoded
  disjoint : ∀ specification, isValid specification = true → env.sheensIsValid specification = false

section

variable {env : Environment} {rules : Rules env} {specification : CString} {spec : Transcoded}
  {input : Request} {edits requests : List Request}

theorem getTranscoder_eq_sheens :
    automationServiceGetTranscoder env rules.toTranscoder specification = some .sheens ↔
      Accepted env specification := by
  unfold automationServiceGetTranscoder Accepted
  cases specification with
  | nil => simp
  | cons c specification =>
    have hdisjoint := rules.disjoint (c :: specification)
    cases hrule : rules.isValid (c :: specification) with
    | true =>
      rw [hdisjoint hrule]
      simp
    | false => simp

theorem getTranscoder_eq_icrules :
    automationServiceGetTranscoder env rules.toTranscoder specification = some .icrules ↔
      specification ≠ [] ∧ rules.isValid specification = true := by
  unfold automationServiceGetTranscoder
  cases specification with
  | nil => simp
  | cons c specification =>
    cases hrule : rules.isValid (c :: specification) with
    | true | false => simp

section

variable (h : transcodeSpecification env rules.toTranscoder specification = some spec)
include h

/-- A specification is passed through, or it is transcoded from a rule. -/
theorem transcodeSpecification_cases :
    (Accepted env specification ∧ spec = ⟨specification, none, 0⟩) ∨
    (¬ Accepted env specification ∧
      automationServiceGetTranscoder env rules.toTranscoder specification = some .icrules ∧
      rules.transcode specification = some spec.specification ∧
      spec.original = some specification ∧ spec.version = rules.version) := by
  unfold transcodeSpecification at h
  cases hdecoder : automationServiceGetTranscoder env rules.toTranscoder specification with
  | none => rw [hdecoder] at h; cases h
  | some decoder =>
    rw [hdecoder] at h
    cases decoder with
    | sheens =>
      left
      exact ⟨getTranscoder_eq_sheens.mp hdecoder, (some.inj h).symm⟩
    | icrules =>
      right
      obtain ⟨transcoded, htranscoded, rfl⟩ := map_eq_some_iff.mp h
      refine ⟨fun haccepted => ?_, rfl, htranscoded, rfl, rfl⟩
      cases hdecoder.symm.trans (getTranscoder_eq_sheens.mpr haccepted)

theorem accepted_transcoded : Accepted env spec.specification := by
  obtain ⟨haccepted, rfl⟩ | ⟨-, -, htranscode, -⟩ := transcodeSpecification_cases h
  · exact haccepted
  · exact rules.accepted _ _ htranscode

theorem ne_nil_of_transcoded : specification ≠ [] := by
  obtain ⟨haccepted, -⟩ | ⟨-, hdecoder, -⟩ := transcodeSpecification_cases h
  · exact haccepted.1
  · exact (getTranscoder_eq_icrules.mp hdecoder).1

end

/-- The service is consistent and has a machine. -/
structure Holds (env : Environment) (s : Service) (id : FileName) (info : MachineInfo) : Prop where
  consistent : Consistent env s
  machine : ∃ address, findMember Machine.key (jsonKey id) s.machineInfo = some ⟨id, info, address⟩

variable {s : Service} {id : FileName} {info : MachineInfo}

theorem Holds.exact (h : Holds env s id info) : Exact s id := by
  obtain ⟨address, hfind⟩ := h.machine
  obtain ⟨hmem, hkey⟩ := of_findMember_eq_some hfind
  intro m hm hmkey
  rw [h.consistent.distinct.eq hm hmem (hmkey.trans hkey.symm)]

theorem holds_of_mem {address : Nat} (h : Consistent env s)
    (hmem : (⟨id, info, address⟩ : Machine) ∈ s.machineInfo) : Holds env s id info :=
  ⟨h, address, (findMember_eq_some_iff h.distinct).mpr ⟨hmem, rfl⟩⟩

/-- What an edit makes of a machine.  The original specification can be that of
an earlier request. -/
def MachineInfo.edit (info : MachineInfo) (spec : Transcoded) (enabled : Bool) : MachineInfo :=
  ⟨enabled, spec.specification, spec.original.or info.originalSpecification, spec.version⟩

/-- Nothing is known of the machine before it is created. -/
def blankInfo : MachineInfo := ⟨false, [], none, 0⟩

theorem holds_create (h : Consistent env s) (hplain : id.Plain)
    (hnew : ∀ m ∈ s.machineInfo, m.key ≠ jsonKey id)
    (hspec : transcodeSpecification env rules.toTranscoder input.specification = some spec) :
    ∃ s', handleCreateAutomationRequest env rules.toTranscoder id input s = some (s', true) ∧
      Holds env s' id (blankInfo.edit spec input.enabled) := by
  obtain ⟨s', heq, hinfo, hs'⟩ := @consistent_addMachine env s id h spec input.enabled hplain
    (accepted_transcoded hspec) (findMember_eq_none_iff.mpr hnew)
  refine ⟨s', ?_, ?_⟩
  · rw [handleCreateAutomationRequest, if_neg (by simpa using ne_nil_of_transcoded hspec),
      automationServiceAddMachine, hspec]
    exact heq
  · have hmem :
        (⟨id, blankInfo.edit spec input.enabled, s.nextSpec⟩ : Machine) ∈ s'.machineInfo := by
      rw [hinfo, MachineInfo.edit, blankInfo, or_none]
      exact mem_append_right _ (mem_singleton_self _)
    exact holds_of_mem hs' hmem

theorem mem_updateMember_self {machine changed : Machine}
    (h : DistinctKeys Machine.key s.machineInfo)
    (hfind : findMember Machine.key (jsonKey id) s.machineInfo = some machine) :
    changed ∈ updateMember Machine.key (jsonKey id) (fun _ => changed) s.machineInfo := by
  obtain ⟨hmem, hkey⟩ := of_findMember_eq_some hfind
  exact (mem_updateMember h).mpr (.inr ⟨machine, hmem, hkey, rfl⟩)

theorem holds_edit (h : Holds env s id info)
    (hspec : transcodeSpecification env rules.toTranscoder input.specification = some spec) :
    ∃ s', handleSetAutomationRequest env rules.toTranscoder id input s = some (s', true) ∧
      Holds env s' id (info.edit spec input.enabled) := by
  obtain ⟨address, hfind⟩ := h.machine
  obtain ⟨s₁, heq₁, hinfo₁, hs₁⟩ :=
    consistent_setMachineEnabled h.consistent h.exact hfind input.enabled
  have hmem₁ : (⟨id, { info with enabled := input.enabled }, address⟩ : Machine) ∈
      s₁.machineInfo := by
    rw [hinfo₁]
    exact mem_updateMember_self h.consistent.distinct hfind
  have h₁ := holds_of_mem hs₁ hmem₁
  obtain ⟨address₁, hfind₁⟩ := h₁.machine
  obtain ⟨s₂, heq₂, hinfo₂, hs₂⟩ :=
    consistent_setMachineSpecification hs₁ h₁.exact hfind₁ (accepted_transcoded hspec)
  refine ⟨s₂, ?_, ?_⟩
  · have hne : (!input.specification.isEmpty) = true := by simpa using ne_nil_of_transcoded hspec
    rw [handleSetAutomationRequest, heq₁, bind_some, hne, hspec]
    show Option.map _ (automationServiceSetMachineSpecification env id spec s₁) = _
    rw [heq₂]
    rfl
  · have hmem₂ : (⟨id, info.edit spec input.enabled, s₁.nextSpec⟩ : Machine) ∈ s₂.machineInfo := by
      rw [hinfo₂]
      exact mem_updateMember_self hs₁.distinct hfind₁
    exact holds_of_mem hs₂ hmem₂

/-- What a request makes of a machine. -/
def edited (env : Environment) (icrules : Transcoder) (info : MachineInfo) (input : Request) :
    MachineInfo :=
  match transcodeSpecification env icrules input.specification with
  | some spec => info.edit spec input.enabled
  | none => { info with enabled := input.enabled }

theorem holds_edits (h : Holds env s id info) (hspecs : ∀ input ∈ edits,
      (transcodeSpecification env rules.toTranscoder input.specification).isSome) :
    ∃ s' results,
      run (fun s input => handleSetAutomationRequest env rules.toTranscoder id input s) s
        edits = some (s', results) ∧ (∀ ok ∈ results, ok = true) ∧
      Holds env s' id (edits.foldl (edited env rules.toTranscoder) info) := by
  induction edits generalizing s info with
  | nil => exact ⟨s, [], rfl, nofun, h⟩
  | cons input edits ih =>
    obtain ⟨spec, hspec⟩ := isSome_iff_exists.mp (hspecs input mem_cons_self)
    obtain ⟨s₁, heq, h₁⟩ := holds_edit h hspec
    obtain ⟨s', results, hrun, hok, h'⟩ :=
      ih h₁ fun input' hinput => hspecs input' (mem_cons_of_mem input hinput)
    refine ⟨s', true :: results, run_cons_eq_some.mpr ⟨s₁, true, results, heq, hrun, rfl⟩, ?_, ?_⟩
    · exact forall_mem_cons.mpr ⟨rfl, hok⟩
    · rw [foldl_cons, edited, hspec]
      exact h'

theorem holds_handleRequests {create : Request} (h : Consistent env s) (hplain : id.Plain)
    (hnew : ∀ m ∈ s.machineInfo, m.key ≠ jsonKey id) (hspecs : ∀ input ∈ create :: edits,
      (transcodeSpecification env rules.toTranscoder input.specification).isSome) :
    ∃ s' results, handleRequests env rules.toTranscoder id create edits s = some (s', results) ∧
      (∀ ok ∈ results, ok = true) ∧
      Holds env s' id ((create :: edits).foldl (edited env rules.toTranscoder) blankInfo) := by
  obtain ⟨spec, hspec⟩ := isSome_iff_exists.mp (hspecs create mem_cons_self)
  obtain ⟨s₁, heq, h₁⟩ := holds_create h hplain hnew hspec
  obtain ⟨s', results, hrun, hok, h'⟩ :=
    holds_edits h₁ fun input hinput => hspecs input (mem_cons_of_mem create hinput)
  refine ⟨s', true :: results, ?_, forall_mem_cons.mpr ⟨rfl, hok⟩, ?_⟩
  · rw [handleRequests, heq, bind_some, hrun]
    rfl
  · rw [foldl_cons, edited, hspec]
    exact h'

/-! ## The original specification -/

/-- An original specification is kept exactly if some request had a rule, and it is a rule. -/
theorem original_foldl (hspecs : ∀ input ∈ requests,
      (transcodeSpecification env rules.toTranscoder input.specification).isSome)
    (hinfo : ∀ original, info.originalSpecification = some original →
      automationServiceGetTranscoder env rules.toTranscoder original = some .icrules) :
    ((requests.foldl (edited env rules.toTranscoder) info).originalSpecification = none ↔
      info.originalSpecification = none ∧ ∀ input ∈ requests, Accepted env input.specification) ∧
    ∀ original, (requests.foldl (edited env rules.toTranscoder) info).originalSpecification =
      some original →
      automationServiceGetTranscoder env rules.toTranscoder original = some .icrules := by
  induction requests generalizing info with
  | nil => exact ⟨by simp, hinfo⟩
  | cons input requests ih =>
    obtain ⟨spec, hspec⟩ := isSome_iff_exists.mp (hspecs input mem_cons_self)
    have ih' := @ih (info.edit spec input.enabled)
      fun input' h => hspecs input' (mem_cons_of_mem input h)
    rw [foldl_cons, edited, hspec, forall_mem_cons]
    obtain ⟨haccepted, rfl⟩ | ⟨hnot, hdecoder, -, horiginal, -⟩ :=
      transcodeSpecification_cases hspec
    · obtain ⟨hnone, hrule⟩ := ih' hinfo
      exact ⟨hnone.trans (by simp [MachineInfo.edit, haccepted]), hrule⟩
    · have hkept : (info.edit spec input.enabled).originalSpecification =
          some input.specification := by
        rw [MachineInfo.edit, horiginal]
        rfl
      obtain ⟨hnone, hrule⟩ := ih' fun _ heq => some.inj (hkept.symm.trans heq) ▸ hdecoder
      exact ⟨hnone.trans (by simp [hkept, hnot]), hrule⟩

end

/-! ## The last request -/

/-- A transcoder of a later service: the same one, or one with another version. -/
def Compatible {env : Environment} (rules rules' : Rules env) : Prop :=
  rules'.version = rules.version → rules' = rules

def lastRequest (create : Request) (edits : List Request) : Request :=
  (create :: edits).getLast (List.cons_ne_nil create edits)

/-- After a restart with any transcoder, the engine runs the transcoded specification. -/
def SurvivesRestart {env : Environment} (rules : Rules env) (storage : Namespace) (id : FileName)
    (specification : CString) : Prop :=
  ∀ (rules' : Rules env) (spec : Transcoded), Compatible rules rules' →
    transcodeSpecification env rules'.toTranscoder specification = some spec →
    ∃ s', loadMachines env rules'.toTranscoder storage = some s' ∧
      s'.engineSpec id = some spec.specification

section

variable {env : Environment} {rules rules' : Rules env} {s : Service} {id : FileName}
  {info : MachineInfo}

/-- After a restart the engine runs an enabled machine that was saved, with its specification
transcoded again if needed. -/
theorem engineSpec_of_holds (h : Holds env s id info) (henabled : info.enabled = true)
    (haccepted : Accepted env (retranscode env rules'.toTranscoder info).1.specification) :
    ∃ s', loadMachines env rules'.toTranscoder s.storage = some s' ∧
      s'.engineSpec id = some (retranscode env rules'.toTranscoder info).1.specification := by
  obtain ⟨address, hfind⟩ := h.machine
  obtain ⟨hmem, -⟩ := of_findMember_eq_some hfind
  have hstored := h.consistent.storage.saved _ hmem
  obtain ⟨hnodup, hlisted⟩ := machineIds_of_tidy h.consistent.storage.tidy
  have hid := (hlisted id).mpr
    ⟨h.consistent.plain _ hmem, by rw [hstored]; exact some_ne_none _⟩
  obtain ⟨s', heq, -, hengine⟩ := @loads_foldlM _ { emptyService with storage := s.storage } env
    rules'.toTranscoder (fun i hi => ((hlisted i).mp hi).1) hnodup nofun nofun
  exact ⟨s', heq, hengine id hid info hstored henabled haccepted⟩

variable {original specification : CString}

section

variable (horiginal : info.originalSpecification = some original)
  (hdecoder : automationServiceGetTranscoder env rules.toTranscoder original = some .icrules)
include horiginal hdecoder

/-- A rule is transcoded again if the transcoder has another version. -/
theorem retranscode_rule (htranscode : rules.transcode original = some specification)
    (hversion : rules.version ≠ info.transcoderVersion) :
    (retranscode env rules.toTranscoder info).1.specification = specification := by
  have hversion' : Decoder.version rules.toTranscoder .icrules ≠ info.transcoderVersion := hversion
  simp only [retranscode, horiginal, hdecoder]
  rw [if_pos hversion', csltTranscode, htranscode]

theorem retranscode_same_version (hversion : rules.version = info.transcoderVersion) :
    retranscode env rules.toTranscoder info = (info, false) := by
  simp only [retranscode, horiginal, hdecoder]
  exact if_neg fun hne => hne hversion

end

theorem survives_rule {spec : Transcoded} (h : Holds env s id info) (henabled : info.enabled = true)
    (hnot : ¬ Accepted env specification)
    (hspec : transcodeSpecification env rules.toTranscoder specification = some spec)
    (hspecification : info.specification = spec.specification)
    (horiginal : info.originalSpecification = some specification)
    (hversion : info.transcoderVersion = rules.version) :
    SurvivesRestart rules s.storage id specification := by
  intro rules' spec' hcompatible hspec'
  obtain ⟨haccepted, -⟩ | ⟨-, hdecoder', htranscode', -⟩ := transcodeSpecification_cases hspec'
  · exact absurd haccepted hnot
  have hretranscoded : (retranscode env rules'.toTranscoder info).1.specification =
      spec'.specification := by
    by_cases hsame : rules'.version = rules.version
    · rw [retranscode_same_version horiginal hdecoder' (hsame.trans hversion.symm), hspecification]
      rw [hcompatible hsame, hspec] at hspec'
      rw [some.inj hspec']
    · apply retranscode_rule horiginal hdecoder' htranscode'
      rwa [hversion]
  rw [← hretranscoded]
  apply engineSpec_of_holds h henabled
  rw [hretranscoded]
  exact accepted_transcoded hspec'

/-- If no rule is kept, a specification that was passed through survives. -/
theorem survives_passed_through (h : Holds env s id info) (henabled : info.enabled = true)
    (haccepted : Accepted env specification) (hspecification : info.specification = specification)
    (horiginal : info.originalSpecification = none) :
    SurvivesRestart rules s.storage id specification := by
  intro rules' spec' _ hspec'
  have hretranscoded : retranscode env rules'.toTranscoder info = (info, false) := by
    rw [retranscode, horiginal]
  have hspec : spec'.specification = info.specification := by
    obtain ⟨-, rfl⟩ | ⟨hnot, -⟩ := transcodeSpecification_cases hspec'
    · exact hspecification.symm
    · exact absurd haccepted hnot
  have hrun := @engineSpec_of_holds env rules' s id info h henabled
  rw [hretranscoded, ← hspec] at hrun
  apply hrun
  exact accepted_transcoded hspec'

/-- A transcoder with a new version that makes something else of every rule. -/
def changedRules (rules : Rules env) (transcoded : CString) (h : Accepted env transcoded) :
    Rules env where
  isValid := rules.isValid
  transcode := fun _ => some transcoded
  version := rules.version.natAbs + 1
  accepted := fun _ _ heq => Option.some.inj heq ▸ h
  disjoint := rules.disjoint

/-- If a rule is kept, it replaces a specification that was passed through. -/
theorem not_survives {other : CString} (h : Holds env s id info) (henabled : info.enabled = true)
    (haccepted : Accepted env specification) (hversion : info.transcoderVersion = 0)
    (horiginal : info.originalSpecification = some original)
    (hrule : automationServiceGetTranscoder env rules.toTranscoder original = some .icrules)
    (hother : Accepted env other) (hne : other ≠ specification) :
    ¬ SurvivesRestart rules s.storage id specification := by
  intro hsurvives
  -- a transcoder of another version that makes something else of the rule
  let rules' := changedRules rules other hother
  have hcompatible : Compatible rules rules' := by
    intro hsame
    have hsame' : (rules.version.natAbs : Int) + 1 = rules.version := hsame
    omega
  have hspec : transcodeSpecification env rules'.toTranscoder specification =
      some ⟨specification, none, 0⟩ := by
    rw [transcodeSpecification, getTranscoder_eq_sheens.mpr haccepted]
    rfl
  have hdecoder : automationServiceGetTranscoder env rules'.toTranscoder original =
      some .icrules := getTranscoder_eq_icrules.mpr (getTranscoder_eq_icrules.mp hrule)
  have hretranscoded : (retranscode env rules'.toTranscoder info).1.specification = other := by
    apply retranscode_rule horiginal hdecoder rfl
    rw [hversion]
    show (rules.version.natAbs : Int) + 1 ≠ 0
    omega
  obtain ⟨s₁, hload₁, hrun₁⟩ := hsurvives rules' _ hcompatible hspec
  obtain ⟨s₂, hload₂, hrun₂⟩ := @engineSpec_of_holds env rules' s id info h henabled
    (by rw [hretranscoded]; exact hother)
  cases hload₁.symm.trans hload₂
  rw [hretranscoded] at hrun₂
  exact hne (some.inj (hrun₂.symm.trans hrun₁))

end

/-- Rules begin with an angle bracket.  All are transcoded to the same specification. -/
def plainRules (version : Int) : Rules plainEnvironment where
  isValid := fun specification => specification.head? = some '<'
  transcode := fun _ => some ['\x7b', 'r']
  version := version
  accepted := by
    rintro _ _ ⟨⟩
    decide
  disjoint := by
    intro specification h
    have hhead : specification.head? = some '<' := by simpa using h
    show decide (specification.head? = some '\x7b') = false
    rw [hhead]
    decide

end ZilkerSdk.Automation

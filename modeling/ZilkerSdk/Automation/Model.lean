import ZilkerSdk.Config.StorageKeys
import ZilkerSdk.Lib.Members

/-!
# Automations

Model of `services/automation/core/src/automationService.c`, of the parts of `engines/sheens.c` that
load machines into the engine, and of the choice of a transcoder in `libs/cslt/src/cslt.c`.

A machine is kept in four places: in the JSON object `machineInfo`, in a file of the storage, and in
the engine in the hash map `specMap` and the JSON object `crewMachines`.

* The names in a JSON object are compared without regard to case.  The hash map and the storage
  compare names exactly.  (A key of the hash map is as long as the name modulo 65536; names of files
  are shorter.)
* `specMap` does not own the texts of the specifications: it points to those in `machineInfo`.  A
  text has an address here, and reading at an address that no machine has is undefined behaviour.
* cJSON prints and parses machines faithfully, and it never prints an empty text.
* Every operation on files works.
* The state of a machine in the crew and its statistics are not modelled.
-/

namespace ZilkerSdk.Automation

open Config Lib Types

/-! ## Transcoders -/

/-- `cslt_transcoder_t` for legacy rules -/
structure Transcoder where
  isValid : CString → Bool
  transcode : CString → Option CString
  version : Int

/-- What a machine is, as it is saved. -/
structure MachineInfo where
  enabled : Bool
  specification : CString
  originalSpecification : Option CString
  transcoderVersion : Int
deriving DecidableEq

/-- What the service uses of cJSON. -/
structure Environment where
  /-- `sheens_is_valid` and `sheens2sheens_is_valid` -/
  sheensIsValid : CString → Bool
  print : MachineInfo → CString
  parse : CString → Option MachineInfo
  print_ne_nil : ∀ info, print info ≠ []
  parse_print : ∀ info, parse (print info) = some info

/-- The decoders of the factory for sheens. -/
inductive Decoder where
  | icrules
  | sheens
deriving DecidableEq

/-- A specification as it is transcoded. -/
structure Transcoded where
  specification : CString
  /-- the specification that was transcoded, if it was not passed through -/
  original : Option CString
  version : Int

section

variable (env : Environment) (icrules : Transcoder)

/-- `automationServiceGetTranscoder`.  No text is both XML and JSON, so the order in which the
transcoders are asked does not matter. -/
def automationServiceGetTranscoder (specification : CString) : Option Decoder :=
  if specification.isEmpty then none
  else if icrules.isValid specification then some .icrules
  else if env.sheensIsValid specification then some .sheens
  else none

def Decoder.version : Decoder → Int
  | .icrules => icrules.version
  | .sheens => 0

/-- `cslt_transcode`; for sheens it is `passthru_transcode` -/
def csltTranscode (specification : CString) : Decoder → Option CString
  | .icrules => icrules.transcode specification
  | .sheens => some specification

/-- The steps that `automationServiceAddMachine` and `handle_SET_AUTOMATION_request` have in common.
A specification that was passed through is the same text, at the same address. -/
def transcodeSpecification (specification : CString) : Option Transcoded :=
  match automationServiceGetTranscoder env icrules specification with
  | none => none
  | some decoder =>
    (csltTranscode icrules specification decoder).map fun transcodedSpec =>
      ⟨transcodedSpec, if decoder = .sheens then none else some specification,
        decoder.version icrules⟩

end

/-! ## The state of the service -/

/-- An item of `machineInfo`. -/
structure Machine where
  id : FileName
  info : MachineInfo
  /-- the address of the text of the specification -/
  specAt : Nat

structure Service where
  machineInfo : List Machine
  storage : Namespace
  specMap : List (FileName × Nat)
  crewMachines : List FileName
  /-- the next address that is given to a text -/
  nextSpec : Nat

/-- Names with the same key are the same for cJSON. -/
def jsonKey (id : FileName) : CString := id.name.map Char.toLower

def Machine.key (machine : Machine) : CString := jsonKey machine.id

/-- The text that is at an address. -/
def Service.specText (s : Service) (address : Nat) : Option CString :=
  (s.machineInfo.find? fun machine => machine.specAt = address).map (·.info.specification)

def saveMachine (env : Environment) (machine : Machine) (storage : Namespace) : Namespace :=
  let files := storage.directory.files machine.id
  some (storage.directory.put machine.id (storageSave .works (env.print machine.info) files).1)

/-! ## The engine -/

def sheensEnable (env : Environment) (id : FileName) (specification : CString) (address : Nat)
    (s : Service) : Option (Service × Bool) :=
  if specification.isEmpty || !env.sheensIsValid specification then some (s, false)
  else match findMember Prod.fst id s.specMap with
  | some oldSpec =>
    match s.specText oldSpec.2 with
    | none => none
    | some text =>
      if text = specification then some (s, true)
      else some ({ s with
        crewMachines := updateMember jsonKey (jsonKey id) (fun _ => id) s.crewMachines
        specMap := deleteMember Prod.fst id s.specMap ++ [(id, address)] }, true)
  | none =>
    some ({ s with
      crewMachines := s.crewMachines ++ [id]
      specMap := s.specMap ++ [(id, address)] }, true)

def sheensDisable (id : FileName) (s : Service) : Service :=
  if (findMember Prod.fst id s.specMap).isSome then
    { s with
      specMap := deleteMember Prod.fst id s.specMap
      crewMachines := deleteMember jsonKey (jsonKey id) s.crewMachines }
  else s

/-! ## The service -/

section

variable (env : Environment) (icrules : Transcoder)

def automationServiceAddMachineInternal (id : FileName) (spec : Transcoded) (enabled : Bool)
    (s : Service) : Option (Service × Bool) :=
  if spec.specification.isEmpty || (findMember Machine.key (jsonKey id) s.machineInfo).isSome then
    some (s, false)
  else
    let info := ⟨enabled, spec.specification, spec.original, spec.version⟩
    let machine : Machine := ⟨id, info, s.nextSpec⟩
    let added := { s with
      machineInfo := s.machineInfo ++ [machine]
      storage := saveMachine env machine s.storage
      nextSpec := s.nextSpec + 1 }
    if enabled then sheensEnable env id spec.specification machine.specAt added
    else some (sheensDisable id added, true)

def automationServiceAddMachine (id : FileName) (specification : CString) (enabled : Bool)
    (s : Service) : Option (Service × Bool) :=
  match transcodeSpecification env icrules specification with
  | none => some (s, false)
  | some spec => automationServiceAddMachineInternal env id spec enabled s

def automationServiceRemoveMachine (id : FileName) (s : Service) : Option (Service × Bool) :=
  match findMember Machine.key (jsonKey id) s.machineInfo with
  | none => some (s, false)
  | some _ =>
    let deleted := storageDelete ⟨true, true, true, true⟩ (s.storage.directory.files id)
    some (sheensDisable id { s with
      machineInfo := deleteMember Machine.key (jsonKey id) s.machineInfo
      storage := s.storage.map fun directory => directory.put id deleted.1 }, deleted.2)

def automationServiceSetMachineEnabled (id : FileName) (enabled : Bool) (s : Service) :
    Option (Service × Bool) :=
  match findMember Machine.key (jsonKey id) s.machineInfo with
  | none => some (s, false)
  | some machine =>
    if machine.info.enabled = enabled then some (s, true)
    else
      let changed := { machine with info := { machine.info with enabled := enabled } }
      let saved := { s with
        machineInfo := updateMember Machine.key (jsonKey id) (fun _ => changed) s.machineInfo
        storage := saveMachine env changed s.storage }
      if enabled then
        (sheensEnable env id machine.info.specification machine.specAt saved).map fun r =>
          (r.1, true)
      else some (sheensDisable id saved, true)

/-- `automationServiceSetMachineSpecification`.  An original specification stays as it is if there
is no new one. -/
def automationServiceSetMachineSpecification (id : FileName) (spec : Transcoded) (s : Service) :
    Option Service :=
  if spec.specification.isEmpty then some s
  else match findMember Machine.key (jsonKey id) s.machineInfo with
  | none => some s
  | some machine =>
    let disabled := if machine.info.enabled then sheensDisable id s else s
    let changed : Machine := ⟨machine.id,
      ⟨machine.info.enabled, spec.specification,
        spec.original.or machine.info.originalSpecification, spec.version⟩, s.nextSpec⟩
    let saved := { disabled with
      machineInfo := updateMember Machine.key (jsonKey id) (fun _ => changed) s.machineInfo
      storage := saveMachine env changed s.storage
      nextSpec := s.nextSpec + 1 }
    if machine.info.enabled then
      (sheensEnable env id spec.specification changed.specAt saved).map Prod.fst
    else some saved

end

/-! ## A text for machines

An environment that can be evaluated.  Specifications for the engine begin with a brace. -/

/-- Each character of a field follows a dot, and a semicolon ends the field. -/
def printField (text : CString) : CString := text.flatMap (fun c => ['.', c]) ++ [';']

def parseField : CString → Option (CString × CString)
  | ';' :: rest => some ([], rest)
  | '.' :: c :: rest => (parseField rest).map fun r => (c :: r.1, r.2)
  | _ => none

theorem parseField_printField (text rest : CString) :
    parseField (printField text ++ rest) = some (text, rest) := by
  induction text with
  | nil => rfl
  | cons c text ih =>
    show (parseField (printField text ++ rest)).map _ = _
    rw [ih]
    rfl

def printOriginal : Option CString → CString
  | none => ['n']
  | some original => 'o' :: printField original

def parseOriginal : CString → Option (Option CString × CString)
  | 'n' :: rest => some (none, rest)
  | 'o' :: rest => (parseField rest).map fun r => (some r.1, r.2)
  | _ => none

theorem parseOriginal_printOriginal (original : Option CString) (rest : CString) :
    parseOriginal (printOriginal original ++ rest) = some (original, rest) := by
  cases original with
  | none => rfl
  | some original =>
    show (parseField (printField original ++ rest)).map _ = _
    rw [parseField_printField]
    rfl

def printVersion : Int → CString
  | .ofNat n => '+' :: List.replicate n '1'
  | .negSucc n => '-' :: List.replicate n '1'

def parseVersion : CString → Option Int
  | '+' :: rest => some (.ofNat rest.length)
  | '-' :: rest => some (.negSucc rest.length)
  | _ => none

theorem parseVersion_printVersion (version : Int) :
    parseVersion (printVersion version) = some version := by
  cases version <;> simp [printVersion, parseVersion]

def printMachine (info : MachineInfo) : CString :=
  (if info.enabled then 't' else 'f') :: (printField info.specification ++
    (printOriginal info.originalSpecification ++ printVersion info.transcoderVersion))

def parseMachine : CString → Option MachineInfo
  | [] => none
  | enabled :: rest =>
    (parseField rest).bind fun specification =>
      (parseOriginal specification.2).bind fun original =>
        (parseVersion original.2).map fun version =>
          ⟨enabled = 't', specification.1, original.1, version⟩

def plainEnvironment : Environment where
  sheensIsValid := fun specification => specification.head? = some '\x7b'
  print := printMachine
  parse := parseMachine
  print_ne_nil := fun _ => List.cons_ne_nil _ _
  parse_print := by
    rintro ⟨enabled, specification, original, version⟩
    simp only [printMachine, parseMachine, parseField_printField, parseOriginal_printOriginal,
      parseVersion_printVersion, Option.bind_some, Option.map_some]
    cases enabled <;> rfl

end ZilkerSdk.Automation

import ZilkerSdk.Config.BackupUtils
import ZilkerSdk.Lib.Run
import ZilkerSdk.Types.HashMap

/-!
# Values in files

Model of `storageSave`, `storageLoad` and `storageDelete` in `libs/config/c/src/storage.c`, for one
key of a namespace.  A key has four files: the value, its backup, a temporary file and a file for
contents that could not be parsed.

What the system calls do is an input.  A process can stop after each step of `storageSave` that
changes a file; then the files stay as they are, and a value can be in the temporary file in part.
-/

namespace ZilkerSdk.Config

open Lib Types

/-- The files of a key: `StorageFilePaths`. -/
structure KeyFiles extends Files CString where
  bad : Option CString

/-! ## Saving -/

/-- What the system calls of `storageSave` do. -/
structure SaveIo where
  /-- the directory of the namespace is there or is made -/
  directory : Bool
  /-- the temporary file is opened -/
  opened : Bool
  /-- writing fails, and so many characters are in the file -/
  stuck : Option Nat
  calls : SaveCalls

def writeTemp (content : CString) (files : Files CString) : Files CString :=
  { files with temp := some content }

def storageSave (io : SaveIo) (value : CString) (files : KeyFiles) : KeyFiles × Bool :=
  if !io.directory || !io.opened then (files, false)
  else match io.stuck with
  | some n => ({ files with toFiles := writeTemp (value.take n) files.toFiles }, false)
  | none =>
    -- the result of `safeFileSave` is not looked at
    ({ files with toFiles := safeFileSave io.calls (writeTemp value files.toFiles) }, true)

/-- What is in the temporary file, one after the other. -/
def tempContents (value : CString) (chunks : List Nat) : List CString :=
  ([] :: chunks.map value.take) ++ [value]

/-- The steps of `storageSave` that change files. -/
def saveSteps (calls : SaveCalls) (value : CString) (chunks : List Nat) :
    List (Files CString → Files CString) :=
  (tempContents value chunks).map writeTemp ++ [keepOriginal calls, replaceOriginal calls]

/-- The files if the process stops after some steps of `storageSave`. -/
def crashedSave (calls : SaveCalls) (value : CString) (chunks : List Nat) (n : Nat)
    (files : KeyFiles) : KeyFiles :=
  { files with
    toFiles := ((saveSteps calls value chunks).take n).foldl (fun files step => step files)
      files.toFiles }

/-! ## Loading -/

/-- What `copyFileByPath` does. -/
inductive Copied where
  | notOpened
  | partly (n : Nat)
  | whole

/-- What the system calls of `loadInternalLocked` do. -/
structure LoadIo where
  readMain : Bool
  renameBad : Bool
  readBackup : Bool
  copied : Copied

/-- The files can be read. -/
def LoadIo.Reads (io : LoadIo) : Prop := io.readMain = true ∧ io.readBackup = true

/-- All system calls work. -/
def LoadIo.works : LoadIo := ⟨true, true, true, .whole⟩

theorem LoadIo.reads_works : LoadIo.works.Reads := ⟨rfl, rfl⟩

def readFileContents (works : Bool) (file : Option CString) : Option CString :=
  if works then file else none

/-- `copyFileByPath` to the main file -/
def copyBackup (io : LoadIo) (data : CString) (files : KeyFiles) : KeyFiles :=
  match io.copied with
  | .notOpened => files
  | .partly n => { files with original := some (data.take n) }
  | .whole => { files with original := some data }

/-- The part of `loadInternalLocked` for `BACKUP_FILE` -/
def loadBackup (parse : CString → Bool) (io : LoadIo) (files : KeyFiles) :
    KeyFiles × Option CString :=
  match (readFileContents io.readBackup files.backup).filter parse with
  | some data => (copyBackup io data files, some data)
  | none => (files, none)

/-- `loadInternalLocked`: the data if it was loaded -/
def loadInternalLocked (parse : CString → Bool) (io : LoadIo) (files : KeyFiles) :
    KeyFiles × Option CString :=
  match chooseFileToRead List.isEmpty files.toFiles with
  | .originalFile =>
    match (readFileContents io.readMain files.original).filter parse with
    | some data => (files, some data)
    | none =>
      loadBackup parse io
        (if io.renameBad then { files with original := none, bad := files.original } else files)
  | .backupFile => loadBackup parse io files
  | .fileNotPresent => (files, none)

/-- `storageLoad`, with `parseAny` -/
def storageLoad (io : LoadIo) (files : KeyFiles) : KeyFiles × Option CString :=
  loadInternalLocked (fun _ => true) io files

/-! ## Deleting -/

/-- What the system calls of `storageDelete` do if there is a file. -/
structure DeleteIo where
  unlinkMain : Bool
  unlinkBackup : Bool
  unlinkTemp : Bool
  unlinkBad : Bool

def unlink (works : Bool) (file : Option CString) : Option CString :=
  if works then none else file

def storageDelete (io : DeleteIo) (files : KeyFiles) : KeyFiles × Bool :=
  ({ original := unlink io.unlinkMain files.original
     backup := unlink io.unlinkBackup files.backup
     temp := unlink io.unlinkTemp files.temp
     bad := unlink io.unlinkBad files.bad },
    files.original.isSome && io.unlinkMain)

/-! ## What is stored -/

/-- The value that is loaded if the files can be read. -/
def stored (files : Files CString) : Option CString :=
  match chooseFileToRead List.isEmpty files with
  | .originalFile => files.original
  | .backupFile => files.backup
  | .fileNotPresent => none

/-- The main file is there and not empty. -/
def MainPresent (files : Files CString) : Prop :=
  chooseFileToRead List.isEmpty files = .originalFile

instance (files : Files CString) : Decidable (MainPresent files) :=
  inferInstanceAs (Decidable (_ = _))

section

variable {files : Files CString}

theorem mainPresent_iff :
    MainPresent files ↔ ∃ value, files.original = some value ∧ value ≠ [] := by
  unfold MainPresent chooseFileToRead
  cases horiginal : files.original with
  | none =>
    rw [if_neg (by simp)]
    split <;> simp
  | some value =>
    cases value with
    | nil =>
      rw [if_neg (by simp)]
      split <;> simp
    | cons c value => simp

theorem not_mainPresent_of_none (h : files.original = none) : ¬ MainPresent files := by
  rw [mainPresent_iff]
  rintro ⟨value, hvalue, -⟩
  rw [h] at hvalue
  cases hvalue

theorem stored_congr {files' : Files CString} (horiginal : files.original = files'.original)
    (hbackup : files.backup = files'.backup) : stored files = stored files' := by
  cases files
  cases files'
  cases horiginal
  cases hbackup
  rfl

theorem stored_of_mainPresent (h : MainPresent files) : stored files = files.original := by
  unfold stored
  rw [h]

theorem stored_of_original {value : CString} (h : files.original = some value) (hne : value ≠ []) :
    stored files = some value := by
  rw [stored_of_mainPresent (mainPresent_iff.mpr ⟨value, h, hne⟩), h]

/-- Without a main file, the backup is loaded if it is not empty. -/
theorem stored_of_not_mainPresent (h : ¬ MainPresent files) :
    stored files = files.backup.filter fun value => !value.isEmpty := by
  unfold MainPresent at h
  unfold stored
  unfold chooseFileToRead at h ⊢
  split at h
  · exact absurd rfl h
  · rename_i horiginal
    rw [if_neg horiginal]
    cases hbackup : files.backup with
    | none => rfl
    | some value => cases value <;> rfl

end

theorem storageLoad_eq {io : LoadIo} (h : io.Reads) (files : KeyFiles) :
    (storageLoad io files).2 = stored files.toFiles := by
  obtain ⟨hmain, hbackup⟩ := h
  have hloadBackup : (loadBackup (fun _ => true) io files).2 = files.backup := by
    unfold loadBackup readFileContents
    rw [if_pos hbackup]
    cases files.backup <;> rfl
  unfold storageLoad loadInternalLocked stored
  cases hchoose : chooseFileToRead List.isEmpty files.toFiles with
  | originalFile =>
    obtain ⟨value, hvalue, -⟩ := mainPresent_iff.mp hchoose
    simp only [readFileContents, if_pos hmain, hvalue, Option.filter_some, if_true]
  | backupFile => exact hloadBackup
  | fileNotPresent => rfl

/-! ## A save that stops -/

section

variable (calls : SaveCalls) (value : CString) (chunks : List Nat)

theorem foldl_writeTemp (contents : List CString) (files : Files CString) :
    ∃ temp, (contents.map writeTemp).foldl (fun files step => step files) files =
      { files with temp := temp } := by
  induction contents generalizing files with
  | nil => exact ⟨files.temp, rfl⟩
  | cons content contents ih => exact ih (writeTemp content files)

theorem foldl_tempContents (files : Files CString) :
    ((tempContents value chunks).map writeTemp).foldl (fun files step => step files) files =
      writeTemp value files := by
  obtain ⟨temp, htemp⟩ := foldl_writeTemp ([] :: chunks.map value.take) files
  rw [tempContents, List.map_append, List.foldl_append, htemp]
  rfl

/-- The process stops while it writes, before the last step or after it. -/
theorem crashedSave_cases (n : Nat) (files : KeyFiles) :
    (∃ temp, crashedSave calls value chunks n files = { files with temp := temp }) ∨
    crashedSave calls value chunks n files =
      { files with toFiles := keepOriginal calls (writeTemp value files.toFiles) } ∨
    crashedSave calls value chunks n files =
      { files with toFiles := safeFileSave calls (writeTemp value files.toFiles) } := by
  unfold crashedSave saveSteps
  rw [List.take_append, List.foldl_append, ← List.map_take]
  cases hlater : n - ((tempContents value chunks).map writeTemp).length with
  | zero =>
    left
    obtain ⟨temp, htemp⟩ := foldl_writeTemp ((tempContents value chunks).take n) files.toFiles
    refine ⟨temp, ?_⟩
    rw [htemp]
    rfl
  | succ m =>
    right
    have hall : (tempContents value chunks).take n = tempContents value chunks := by
      apply List.take_of_length_le
      rw [List.length_map] at hlater
      omega
    rw [hall, foldl_tempContents]
    cases m with
    | zero => exact .inl rfl
    | succ m => exact .inr (by rw [safeFileSave]; simp)

end

section

variable {calls : SaveCalls} {files : Files CString} {old : CString}

/-- As long as the main file is there, it or its copy as a backup is loaded. -/
theorem stored_keepOriginal (h : files.original = some old) (hne : old ≠ []) :
    stored (keepOriginal calls files) = some old := by
  unfold keepOriginal
  rw [h]
  cases hcall : calls.renameOriginal with
  | false => exact stored_of_original h hne
  | true =>
    rw [stored_of_not_mainPresent (not_mainPresent_of_none rfl)]
    simp [hne]

theorem stored_safeFileSave {value : CString} (h : files.original = some old) (hne : old ≠ [])
    (htemp : files.temp = some value) (hvalue : value ≠ []) :
    stored (safeFileSave calls files) = some old ∨
      stored (safeFileSave calls files) = some value := by
  cases hcall : calls.renameTemp with
  | true => exact .inr (stored_of_original (original_safeFileSave htemp hcall) hvalue)
  | false =>
    left
    have hkept : safeFileSave calls files = keepOriginal calls files := by
      simp only [safeFileSave, replaceOriginal, temp_keepOriginal, htemp, hcall, Bool.false_eq_true,
        if_false]
    rw [hkept]
    exact stored_keepOriginal h hne

/-- If there is no main file, the backup is lost before the new value is in place. -/
theorem stored_keepOriginal_eq_none
    (hcalls : calls.renameOriginal = true ∧ calls.unlinkBackup = true)
    (h : ¬ MainPresent files) : stored (keepOriginal calls files) = none := by
  unfold keepOriginal
  cases horiginal : files.original with
  | none =>
    simp only [hcalls.2, if_true]
    rfl
  | some content =>
    have hempty : content = [] := by
      by_contra hne
      exact h (mainPresent_iff.mpr ⟨content, horiginal, hne⟩)
    simp only [hcalls.1, if_true, hempty]
    rfl

end

/-! ## From the old value to the new one -/

/-- Wherever the save stops, the old value or the new one is loaded. -/
def CrashAtomic (files : KeyFiles) (old : CString) : Prop :=
  ∀ (calls : SaveCalls) (value : CString) (chunks : List Nat) (n : Nat) (io : LoadIo),
    value ≠ [] → io.Reads →
    (storageLoad io (crashedSave calls value chunks n files)).2 = some old ∨
      (storageLoad io (crashedSave calls value chunks n files)).2 = some value

/-- A value that was saved is loaded.  `storageSave` does not say if its last step works. -/
def Durable (files : KeyFiles) : Prop :=
  ∀ (saveIo : SaveIo) (value : CString) (io : LoadIo),
    value ≠ [] → io.Reads → saveIo.calls.renameTemp = true →
    (storageSave saveIo value files).2 = true →
    (storageLoad io (storageSave saveIo value files).1).2 = some value

theorem crashAtomic_of_mainPresent {files : KeyFiles} {old : CString}
    (hold : files.original = some old) (hne : old ≠ []) : CrashAtomic files old := by
  intro calls value chunks n io hvalue hio
  rw [storageLoad_eq hio]
  obtain ⟨temp, h⟩ | h | h := crashedSave_cases calls value chunks n files <;> rw [h]
  · exact .inl (stored_of_original hold hne)
  · exact .inl (stored_keepOriginal hold hne)
  · exact stored_safeFileSave hold hne rfl hvalue

theorem durable (files : KeyFiles) : Durable files := by
  intro saveIo value io hvalue hio hcall hsave
  rw [storageLoad_eq hio]
  unfold storageSave at hsave ⊢
  split
  · rename_i h
    rw [if_pos h] at hsave
    cases hsave
  · rename_i h
    rw [if_neg h] at hsave
    cases hstuck : saveIo.stuck with
    | some n => rw [hstuck] at hsave; cases hsave
    | none => exact stored_of_original (original_safeFileSave rfl hcall) hvalue

/-- A save is atomic exactly if it starts with a main file.  If only the backup is there, as after a
save that stopped before its last step, the backup is given up too early. -/
theorem save_crash_atomic_iff {files : KeyFiles} {old : CString}
    (hold : stored files.toFiles = some old) :
    CrashAtomic files old ∧ Durable files ↔ MainPresent files.toFiles := by
  constructor
  · rintro ⟨hatomic, -⟩
    by_contra hmain
    -- stop before the last step
    have hload := hatomic ⟨true, true, true⟩ ['v'] [] 3 .works (by simp) LoadIo.reads_works
    have hcrashed : crashedSave ⟨true, true, true⟩ ['v'] [] 3 files =
        { files with toFiles := keepOriginal ⟨true, true, true⟩ (writeTemp ['v'] files.toFiles) } :=
      rfl
    have hnot : ¬ MainPresent (writeTemp ['v'] files.toFiles) := hmain
    rw [storageLoad_eq LoadIo.reads_works, hcrashed,
      stored_keepOriginal_eq_none ⟨rfl, rfl⟩ hnot] at hload
    obtain h | h := hload <;> cases h
  · intro hmain
    obtain ⟨value, hvalue, hne⟩ := mainPresent_iff.mp hmain
    have heq : value = old := by
      rw [stored_of_mainPresent hmain, hvalue] at hold
      exact Option.some.inj hold
    exact ⟨crashAtomic_of_mainPresent (heq ▸ hvalue) (heq ▸ hne), durable files⟩

def noFiles : KeyFiles := ⟨⟨none, none, none⟩, none⟩

theorem save_crash_atomic_iff_first :
    CrashAtomic (storageSave ⟨true, true, none, ⟨true, true, true⟩⟩ ['o'] noFiles).1 ['o'] ∧
      Durable (storageSave ⟨true, true, none, ⟨true, true, true⟩⟩ ['o'] noFiles).1 :=
  (save_crash_atomic_iff (by decide)).mpr (by decide)

/-- A value is saved, a save stops before its last step and the next one does, too.  Then nothing is
left to load. -/
theorem second_crash_loses_value :
    let saved := (storageSave ⟨true, true, none, ⟨true, true, true⟩⟩ ['o'] noFiles).1
    let once := crashedSave ⟨true, true, true⟩ ['p'] [] 3 saved
    let twice := crashedSave ⟨true, true, true⟩ ['q'] [] 3 once
    (storageLoad .works once).2 = some ['o'] ∧
      (storageLoad .works twice).2 = none := by
  decide

end ZilkerSdk.Config

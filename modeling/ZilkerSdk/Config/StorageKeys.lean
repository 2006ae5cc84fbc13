import Mathlib.Data.List.AList
import ZilkerSdk.Config.Storage

/-!
# The keys of a namespace

Model of a namespace of `libs/config/c/src/storage.c`: a directory in which each key has its four
files, with `storageGetKeys`, which finds the keys by the names of the files.

* A key is the name of a file: it is not empty, `.` or `..`, and it has no slash.  What the code
  does with other keys depends on the rest of the file system and is not modelled.
* The directory has no directories in it.
* `storageGetKeys` collects names in hash maps.  The order of its result is not specified.
-/

namespace ZilkerSdk.Config

open Lib Types List

/-! ## Names of files -/

structure FileName where
  name : CString
  proper : name ≠ [] ∧ name ≠ ['.'] ∧ name ≠ ['.', '.'] ∧ '/' ∉ name
deriving DecidableEq

inductive Suffix where
  | bak
  | tmp
  | bad
deriving DecidableEq

def Suffix.text : Suffix → CString
  | .bak => ".bak".toList
  | .tmp => ".tmp".toList
  | .bad => ".bad".toList

theorem Suffix.length_text (suffix : Suffix) : suffix.text.length = 4 := by
  cases suffix <;> rfl

/-- The names that `getFilepaths` makes of a key. -/
def FileName.withSuffix (key : FileName) (suffix : Suffix) : FileName where
  name := key.name ++ suffix.text
  proper := by
    have hlength : (key.name ++ suffix.text).length = key.name.length + 4 := by
      rw [List.length_append, suffix.length_text]
    refine ⟨?_, ?_, ?_, ?_⟩
    · intro h
      rw [h] at hlength
      simp at hlength
    · intro h
      rw [h] at hlength
      simp at hlength
    · intro h
      rw [h] at hlength
      simp at hlength
    · rw [List.mem_append]
      rintro (h | h)
      · exact key.proper.2.2.2 h
      · revert h
        cases suffix <;> decide

section

variable {key key' : FileName} {suffix suffix' : Suffix}

theorem FileName.ext_name (h : key.name = key'.name) : key = key' := by
  cases key
  cases key'
  cases h
  rfl

theorem FileName.withSuffix_inj (h : key.withSuffix suffix = key'.withSuffix suffix') :
    key = key' ∧ suffix = suffix' := by
  have hname : key.name ++ suffix.text = key'.name ++ suffix'.text := congrArg FileName.name h
  obtain ⟨hkey, hsuffix⟩ :=
    append_inj' hname (suffix.length_text.trans suffix'.length_text.symm)
  refine ⟨FileName.ext_name hkey, ?_⟩
  revert hsuffix
  cases suffix <;> cases suffix' <;> decide

theorem FileName.ne_withSuffix (key : FileName) (suffix : Suffix) :
    key ≠ key.withSuffix suffix := by
  intro h
  have hname : key.name = key.name ++ suffix.text := congrArg FileName.name h
  have hlength := congrArg length hname
  rw [length_append, suffix.length_text] at hlength
  omega

end

/-! ## The directory -/

abbrev Directory := AList fun _ : FileName => CString

/-- Write a file or remove it. -/
def Directory.set (directory : Directory) (name : FileName) : Option CString → Directory
  | some content => directory.insert name content
  | none => directory.erase name

theorem lookup_set (directory : Directory) (name : FileName) (content : Option CString)
    (other : FileName) :
    (directory.set name content).lookup other =
      if other = name then content else directory.lookup other := by
  split
  · rename_i h
    rw [h]
    cases content with
    | none => exact AList.lookup_erase name directory
    | some content => exact AList.lookup_insert directory
  · rename_i h
    cases content with
    | none => exact AList.lookup_erase_ne h
    | some content => exact AList.lookup_insert_ne h

/-- The files of a key. -/
def Directory.files (directory : Directory) (key : FileName) : KeyFiles where
  original := directory.lookup key
  backup := directory.lookup (key.withSuffix .bak)
  temp := directory.lookup (key.withSuffix .tmp)
  bad := directory.lookup (key.withSuffix .bad)

/-- Replace the files of a key. -/
def Directory.put (directory : Directory) (key : FileName) (files : KeyFiles) : Directory :=
  (((directory.set (key.withSuffix .bad) files.bad).set (key.withSuffix .tmp) files.temp).set
    (key.withSuffix .bak) files.backup).set key files.original

theorem lookup_put (directory : Directory) (key : FileName) (files : KeyFiles) (name : FileName) :
    (directory.put key files).lookup name =
      if name = key then files.original
      else if name = key.withSuffix .bak then files.backup
      else if name = key.withSuffix .tmp then files.temp
      else if name = key.withSuffix .bad then files.bad
      else directory.lookup name := by
  simp only [Directory.put, lookup_set]

theorem files_put_self (directory : Directory) (key : FileName) (files : KeyFiles) :
    (directory.put key files).files key = files := by
  have hsuffix : ∀ suffix suffix' : Suffix, suffix ≠ suffix' →
      key.withSuffix suffix ≠ key.withSuffix suffix' :=
    fun _ _ hne h => hne (FileName.withSuffix_inj h).2
  simp only [Directory.files, lookup_put, if_true, if_neg (key.ne_withSuffix _).symm,
    if_neg (hsuffix .tmp .bak (by decide)), if_neg (hsuffix .bad .bak (by decide)),
    if_neg (hsuffix .bad .tmp (by decide))]

theorem lookup_put_of_ne {directory : Directory} {key : FileName} {files : KeyFiles}
    {name : FileName} (h : name ≠ key) (hsuffix : ∀ suffix, name ≠ key.withSuffix suffix) :
    (directory.put key files).lookup name = directory.lookup name := by
  rw [lookup_put, if_neg h, if_neg (hsuffix .bak), if_neg (hsuffix .tmp), if_neg (hsuffix .bad)]

/-! ## Calls -/

inductive StorageCall where
  | save (key : FileName) (value : CString) (io : SaveIo)
  | load (key : FileName) (io : LoadIo)
  | delete (key : FileName) (io : DeleteIo)

def StorageCall.key : StorageCall → FileName
  | .save key _ _ => key
  | .load key _ => key
  | .delete key _ => key

inductive StorageResult where
  | saved (ok : Bool)
  | loaded (value : Option CString)
  | deleted (ok : Bool)
deriving DecidableEq

/-- The directory of a namespace is made by the first save. -/
abbrev Namespace := Option Directory

def Namespace.directory (ns : Namespace) : Directory := ns.getD ∅

/-- What a call does to the files of its key. -/
def StorageCall.onFiles (files : KeyFiles) : StorageCall → KeyFiles × StorageResult
  | .save _ value io => ((storageSave io value files).1, .saved (storageSave io value files).2)
  | .load _ io => ((storageLoad io files).1, .loaded (storageLoad io files).2)
  | .delete _ io => ((storageDelete io files).1, .deleted (storageDelete io files).2)

/-- Is there a directory, or does the call make one? -/
def StorageCall.directoryExists (ns : Namespace) : StorageCall → Bool
  | .save _ _ io => ns.isSome || io.directory
  | .load _ _ => ns.isSome
  | .delete _ _ => ns.isSome

/-- One call.  Without a directory there are no files, and nothing happens. -/
def namespaceStep (ns : Namespace) (call : StorageCall) : Option (Namespace × StorageResult) :=
  let result := call.onFiles (ns.directory.files call.key)
  if call.directoryExists ns then some (some (ns.directory.put call.key result.1), result.2)
  else some (none, (call.onFiles noFiles).2)

/-- `storageLoad` of a key -/
def Namespace.load (io : LoadIo) (ns : Namespace) (key : FileName) : Option CString :=
  (storageLoad io (ns.directory.files key)).2

/-! ## The list of keys -/

def storageKeyFileName : CString := "store".toList

/-- The last four characters. -/
def extension (name : CString) : CString := name.drop (name.length - 4)

def isRegularFile (name : CString) : Bool :=
  name ≠ storageKeyFileName &&
    (name.length ≤ 4 ||
      extension name ≠ Suffix.bak.text && extension name ≠ Suffix.tmp.text &&
        extension name ≠ Suffix.bad.text)

def isBakFile (name : CString) : Bool :=
  name ≠ storageKeyFileName && name.length > 4 && extension name = Suffix.bak.text

/-- The keys of backups that have no regular file are added. -/
def addMissing (regularFiles : List CString) (bakFiles : List CString) : List CString :=
  bakFiles.foldl (fun regularFiles name =>
    let key := name.take (name.length - 4)
    if regularFiles.contains key then regularFiles else regularFiles ++ [key]) regularFiles

/-- `storageGetKeys` of a directory -/
def directoryKeys (directory : Directory) : List CString :=
  let names := directory.keys.map FileName.name
  addMissing (names.filter isRegularFile) (names.filter isBakFile)

/-- `storageGetKeys`: NULL if there is no directory -/
def storageGetKeys (ns : Namespace) : Option (List CString) := ns.map directoryKeys

variable {directory : Directory} {key other : FileName} {files : KeyFiles}

section

variable {bakFiles regularFiles : List CString}

theorem mem_addMissing (name : CString) :
    name ∈ addMissing regularFiles bakFiles ↔
      name ∈ regularFiles ∨ ∃ bak ∈ bakFiles, bak.take (bak.length - 4) = name := by
  induction bakFiles generalizing regularFiles with
  | nil => simp [addMissing]
  | cons bak bakFiles ih =>
    rw [addMissing, foldl_cons, ← addMissing, ih]
    simp only [exists_mem_cons_iff]
    split
    · rename_i hcontains
      rw [contains_iff_mem] at hcontains
      constructor
      · rintro (h | h)
        · exact .inl h
        · exact .inr (.inr h)
      · rintro (h | h | h)
        · exact .inl h
        · exact .inl (h ▸ hcontains)
        · exact .inr h
    · rw [mem_append, mem_singleton, or_assoc, eq_comm]

theorem nodup_addMissing (h : regularFiles.Nodup) : (addMissing regularFiles bakFiles).Nodup := by
  induction bakFiles generalizing regularFiles with
  | nil => exact h
  | cons bak bakFiles ih =>
    apply ih
    dsimp only
    split
    · exact h
    · rename_i hcontains
      rw [contains_iff_mem] at hcontains
      apply List.Nodup.append h (nodup_singleton _)
      rw [disjoint_singleton]
      exact hcontains

theorem nodup_directoryKeys (directory : Directory) : (directoryKeys directory).Nodup := by
  apply nodup_addMissing
  apply List.Nodup.filter
  exact List.Nodup.map (fun _ _ h => FileName.ext_name h) directory.keys_nodup

theorem mem_directoryKeys {name : CString} :
    name ∈ directoryKeys directory ↔
      (∃ file ∈ directory, isRegularFile file.name = true ∧ file.name = name) ∨
      ∃ file ∈ directory, isBakFile file.name = true ∧
        file.name.take (file.name.length - 4) = name := by
  simp only [directoryKeys, mem_addMissing, mem_filter, mem_map, AList.mem_keys]
  constructor
  · rintro (⟨⟨file, hfile, rfl⟩, hregular⟩ | ⟨_, ⟨⟨file, hfile, rfl⟩, hbak⟩, hname⟩)
    · exact .inl ⟨file, hfile, hregular, rfl⟩
    · exact .inr ⟨file, hfile, hbak, hname⟩
  · rintro (⟨file, hfile, hregular, rfl⟩ | ⟨file, hfile, hbak, hname⟩)
    · exact .inl ⟨⟨file, hfile, rfl⟩, hregular⟩
    · exact .inr ⟨_, ⟨⟨file, hfile, rfl⟩, hbak⟩, hname⟩

end

/-! ## Plain keys -/

/-- A key that `storageGetKeys` takes for a key. -/
def FileName.Plain (key : FileName) : Prop := isRegularFile key.name = true

instance (key : FileName) : Decidable key.Plain := inferInstanceAs (Decidable (_ = _))

section

variable {suffix : Suffix}

section

variable (key : FileName)

theorem extension_withSuffix (suffix : Suffix) :
    extension (key.withSuffix suffix).name = suffix.text := by
  show (key.name ++ suffix.text).drop ((key.name ++ suffix.text).length - 4) = suffix.text
  rw [length_append, suffix.length_text, Nat.add_sub_cancel, drop_left]

theorem take_withSuffix (suffix : Suffix) :
    (key.withSuffix suffix).name.take ((key.withSuffix suffix).name.length - 4) = key.name := by
  show (key.name ++ suffix.text).take ((key.name ++ suffix.text).length - 4) = key.name
  rw [length_append, suffix.length_text, Nat.add_sub_cancel, take_left]

theorem four_lt_length_withSuffix (suffix : Suffix) :
    4 < (key.withSuffix suffix).name.length := by
  show 4 < (key.name ++ suffix.text).length
  rw [length_append, suffix.length_text]
  have := length_pos_of_ne_nil key.proper.1
  omega

theorem not_plain_withSuffix (suffix : Suffix) : ¬ (key.withSuffix suffix).Plain := by
  have hlength : ¬ (key.withSuffix suffix).name.length ≤ 4 :=
    Nat.not_le.mpr (four_lt_length_withSuffix key suffix)
  unfold FileName.Plain isRegularFile
  rw [extension_withSuffix]
  cases suffix <;> simp [hlength]

end

theorem isBakFile_withSuffix :
    isBakFile (key.withSuffix suffix).name = true ↔ suffix = .bak := by
  have hextension := extension_withSuffix key suffix
  unfold isBakFile
  rw [hextension]
  -- the extension of the key file is not reserved
  have hstore : (key.withSuffix suffix).name ≠ storageKeyFileName := by
    intro h
    rw [h] at hextension
    revert hextension
    cases suffix <;> decide
  have hlength := four_lt_length_withSuffix key suffix
  cases suffix <;> simp [hstore, hlength, Suffix.text]

theorem not_isBakFile_of_plain (h : key.Plain) : ¬ isBakFile key.name = true := by
  intro hbak
  simp only [FileName.Plain, isRegularFile, isBakFile, Bool.and_eq_true, Bool.or_eq_true,
    decide_eq_true_eq] at h hbak
  obtain ⟨-, hlength | hextension⟩ := h
  · omega
  · exact hextension.1.1 hbak.2

theorem ne_withSuffix_of_plain {other : FileName} (h : key.Plain) (suffix : Suffix) :
    key ≠ other.withSuffix suffix := by
  rintro rfl
  exact not_plain_withSuffix other suffix h

end

/-! ## Files without empty values -/

/-- Neither the value nor its backup is empty. -/
structure Whole (files : Files CString) : Prop where
  original : ∀ content, files.original = some content → content ≠ []
  backup : ∀ content, files.backup = some content → content ≠ []

theorem Whole.keepOriginal {files : Files CString} (h : Whole files) (calls : SaveCalls) :
    Whole (keepOriginal calls files) := by
  unfold Config.keepOriginal
  cases horiginal : files.original with
  | none =>
    dsimp only
    split
    · exact ⟨by simp, by simp⟩
    · exact h
  | some content =>
    dsimp only
    split
    · refine ⟨by simp, ?_⟩
      rintro _ ⟨⟩
      exact h.original content horiginal
    · exact h

theorem Whole.storageSave (h : Whole files.toFiles) {io : SaveIo} {value : CString}
    (hvalue : value ≠ []) : Whole (storageSave io value files).1.toFiles := by
  unfold Config.storageSave
  split
  · exact h
  · cases io.stuck with
    | some n => exact ⟨h.original, h.backup⟩
    | none =>
      have hwritten : Whole (writeTemp value files.toFiles) := ⟨h.original, h.backup⟩
      have hkept := hwritten.keepOriginal io.calls
      rw [safeFileSave, replaceOriginal, temp_keepOriginal]
      show Whole (if io.calls.renameTemp = true then _ else _)
      split
      · refine ⟨?_, hkept.backup⟩
        rintro _ ⟨⟩
        exact hvalue
      · exact hkept

variable {io : LoadIo} {call : StorageCall} {ns ns' : Namespace} {result : StorageResult}
  {calls : List StorageCall} {results : List StorageResult}

theorem Whole.loadBackup (h : Whole files.toFiles) {parse : CString → Bool}
    (hcopied : ∀ n, io.copied ≠ .partly n) : Whole (loadBackup parse io files).1.toFiles := by
  unfold Config.loadBackup
  cases hdata : (readFileContents io.readBackup files.backup).filter parse with
  | none => exact h
  | some data =>
    have hbackup : files.backup = some data := by
      have hread := (Option.filter_eq_some_iff.mp hdata).1
      unfold readFileContents at hread
      split at hread
      · exact hread
      · cases hread
    unfold copyBackup
    cases hio : io.copied with
    | notOpened => exact h
    | partly n => exact absurd hio (hcopied n)
    | whole =>
      refine ⟨?_, h.backup⟩
      rintro _ ⟨⟩
      exact h.backup data hbackup

theorem Whole.storageLoad (h : Whole files.toFiles)
    (hcopied : ∀ n, io.copied ≠ .partly n) : Whole (storageLoad io files).1.toFiles := by
  unfold Config.storageLoad loadInternalLocked
  cases chooseFileToRead isEmpty files.toFiles with
  | originalFile =>
    dsimp only
    split
    · exact h
    · apply Whole.loadBackup _ hcopied
      split
      · exact ⟨by simp, h.backup⟩
      · exact h
  | backupFile => exact h.loadBackup hcopied
  | fileNotPresent => exact h

theorem Whole.storageDelete (h : Whole files.toFiles) (io : DeleteIo) :
    Whole (storageDelete io files).1.toFiles := by
  have hunlink : ∀ (works : Bool) (file : Option CString),
      (∀ content, file = some content → content ≠ []) →
      ∀ content, unlink works file = some content → content ≠ [] := by
    intro works file hfile content hcontent
    cases works with
    | true => cases hcontent
    | false => exact hfile content hcontent
  exact ⟨hunlink io.unlinkMain _ h.original, hunlink io.unlinkBackup _ h.backup⟩

/-- If no file is empty, a value is stored if there is a file. -/
theorem Whole.stored_ne_none_iff {files : Files CString} (h : Whole files) :
    stored files ≠ none ↔ files.original ≠ none ∨ files.backup ≠ none := by
  by_cases hmain : MainPresent files
  · obtain ⟨value, hvalue, -⟩ := mainPresent_iff.mp hmain
    rw [stored_of_mainPresent hmain, hvalue]
    simp
  · have horiginal : files.original = none := by
      cases hfile : files.original with
      | none => rfl
      | some content =>
        exact absurd (mainPresent_iff.mpr ⟨content, hfile, h.original _ hfile⟩) hmain
    rw [stored_of_not_mainPresent hmain, horiginal]
    cases hbackup : files.backup with
    | none => simp
    | some content => simp [h.backup content hbackup]

/-! ## Proper calls -/

/-- A call for a plain key that leaves no empty value. -/
def StorageCall.Proper : StorageCall → Prop
  | .save key value _ => key.Plain ∧ value ≠ []
  | .load key io => key.Plain ∧ ∀ n, io.copied ≠ .partly n
  | .delete key _ => key.Plain

theorem StorageCall.Proper.plain (h : call.Proper) : call.key.Plain := by
  cases call with
  | save | load => exact h.1
  | delete key io => exact h

theorem StorageCall.Proper.whole (h : call.Proper) (hfiles : Whole files.toFiles) :
    Whole (call.onFiles files).1.toFiles := by
  cases call with
  | save key value io => exact hfiles.storageSave h.2
  | load key io => exact hfiles.storageLoad h.2
  | delete key io => exact hfiles.storageDelete io

/-- Every file is one of the files of a plain key, and no value is empty. -/
structure Tidy (directory : Directory) : Prop where
  owned : ∀ name ∈ directory,
    name.Plain ∨ ∃ (key : FileName) (suffix : Suffix), key.Plain ∧ name = key.withSuffix suffix
  whole : ∀ key : FileName, key.Plain → Whole (directory.files key).toFiles

theorem tidy_empty : Tidy ∅ where
  owned := fun name h => absurd h (AList.notMem_empty name)
  whole := fun _ _ => ⟨by simp [Directory.files], by simp [Directory.files]⟩

theorem files_put_of_plain (hkey : key.Plain) (hother : other.Plain) (hne : other ≠ key) :
    (directory.put key files).files other = directory.files other := by
  have hmain : (directory.put key files).lookup other = directory.lookup other :=
    lookup_put_of_ne hne (ne_withSuffix_of_plain hother)
  have hsuffix : ∀ suffix, (directory.put key files).lookup (other.withSuffix suffix) =
      directory.lookup (other.withSuffix suffix) := by
    intro suffix
    apply lookup_put_of_ne (ne_withSuffix_of_plain hkey suffix).symm
    intro suffix' h
    exact hne (FileName.withSuffix_inj h).1
  simp only [Directory.files, hmain, hsuffix]

theorem Tidy.put (h : Tidy directory) (hkey : key.Plain) (hfiles : Whole files.toFiles) :
    Tidy (directory.put key files) where
  owned := by
    intro name hname
    by_cases hmain : name = key
    · exact .inl (hmain ▸ hkey)
    by_cases hsuffix : ∃ suffix, name = key.withSuffix suffix
    · obtain ⟨suffix, rfl⟩ := hsuffix
      exact .inr ⟨key, suffix, hkey, rfl⟩
    · apply h.owned
      rw [← AList.lookup_isSome] at hname ⊢
      rwa [lookup_put_of_ne hmain fun suffix h => hsuffix ⟨suffix, h⟩] at hname
  whole := by
    intro other hother
    by_cases hne : other = key
    · rw [hne, files_put_self]
      exact hfiles
    · rw [files_put_of_plain hkey hother hne]
      exact h.whole other hother

theorem Tidy.mem_directoryKeys (h : Tidy directory) {name : CString} :
    name ∈ directoryKeys directory ↔
      ∃ key : FileName, key.Plain ∧ key.name = name ∧
        stored (directory.files key).toFiles ≠ none := by
  rw [Config.mem_directoryKeys]
  constructor
  · rintro (⟨file, hfile, hregular, rfl⟩ | ⟨file, hfile, hbak, rfl⟩)
    · refine ⟨file, hregular, rfl, ?_⟩
      rw [(h.whole file hregular).stored_ne_none_iff]
      left
      rwa [← AList.lookup_isSome, Option.isSome_iff_ne_none] at hfile
    · -- the backup of a plain key
      obtain hplain | ⟨key, suffix, hkey, rfl⟩ := h.owned file hfile
      · exact absurd hbak (not_isBakFile_of_plain hplain)
      · obtain rfl := isBakFile_withSuffix.mp hbak
        refine ⟨key, hkey, (take_withSuffix key .bak).symm, ?_⟩
        rw [(h.whole key hkey).stored_ne_none_iff]
        right
        rwa [← AList.lookup_isSome, Option.isSome_iff_ne_none] at hfile
  · rintro ⟨key, hkey, rfl, hstored⟩
    rw [(h.whole key hkey).stored_ne_none_iff] at hstored
    obtain hmain | hbackup := hstored
    · left
      refine ⟨key, ?_, hkey, rfl⟩
      rwa [← AList.lookup_isSome, Option.isSome_iff_ne_none]
    · right
      refine ⟨key.withSuffix .bak, ?_, isBakFile_withSuffix.mpr rfl, take_withSuffix key .bak⟩
      rwa [← AList.lookup_isSome, Option.isSome_iff_ne_none]

/-! ## Runs -/

theorem namespaceStep_cases (h : namespaceStep ns call = some (ns', result)) :
    (∃ files, ns' = some (ns.directory.put call.key files) ∧
      files = (call.onFiles (ns.directory.files call.key)).1) ∨
    ns = none ∧ ns' = none := by
  unfold namespaceStep at h
  split at h
  · cases h
    exact .inl ⟨_, rfl, rfl⟩
  · rename_i hexists
    cases h
    refine .inr ⟨?_, rfl⟩
    cases ns with
    | none => rfl
    | some directory => cases call <;> exact absurd rfl hexists

theorem tidy_run (hcalls : Guarded namespaceStep (fun _ call => call.Proper) none calls)
    (hrun : run namespaceStep none calls = some (ns, results)) : Tidy ns.directory := by
  apply run_invariant _ _ hcalls hrun
  · intro ns call ns' result h hcall hstep
    obtain ⟨files, rfl, rfl⟩ | ⟨-, rfl⟩ := namespaceStep_cases hstep
    · exact h.put hcall.plain (hcall.whole (h.whole _ hcall.plain))
    · exact tidy_empty
  · exact tidy_empty

/-! ## Independent keys -/

/-- No file that is written for the second key is read for the first one. -/
def Apart (key other : FileName) : Prop :=
  (∀ suffix, key ≠ other.withSuffix suffix) ∧ other ≠ key.withSuffix .bak

theorem stored_put_of_apart (hne : key ≠ other) (h : Apart key other) :
    stored ((directory.put other files).files key).toFiles =
      stored (directory.files key).toFiles := by
  have horiginal : (directory.put other files).lookup key = directory.lookup key :=
    lookup_put_of_ne hne h.1
  have hbackup : (directory.put other files).lookup (key.withSuffix .bak) =
      directory.lookup (key.withSuffix .bak) := by
    apply lookup_put_of_ne h.2.symm
    intro suffix heq
    exact hne (FileName.withSuffix_inj heq).1
  exact stored_congr horiginal hbackup

/-- Calls for one key do not change what is loaded for a key apart from it. -/
theorem load_run_of_apart (hne : key ≠ other) (hapart : Apart key other)
    (hcalls : ∀ call ∈ calls, call.key = other)
    (hrun : run namespaceStep ns calls = some (ns', results)) (hio : io.Reads) :
    ns'.load io key = ns.load io key := by
  have hload : ∀ ns : Namespace, ns.load io key = stored (ns.directory.files key).toFiles :=
    fun ns => storageLoad_eq hio _
  rw [hload, hload]
  have hguarded : Guarded namespaceStep (fun _ call => call.key = other) ns calls :=
    guarded_of_forall namespaceStep ns fun call hcall _ => hcalls call hcall
  apply run_invariant _ _ hguarded hrun
  · intro ns₁ call ns₂ result h hkey hstep
    obtain ⟨files, rfl, -⟩ | ⟨rfl, rfl⟩ := namespaceStep_cases hstep
    · rw [← h, hkey]
      exact stored_put_of_apart hne hapart
    · exact h
  · rfl

/-! ## Keys are independent and listed -/

/-- Each key with a value is listed once, and no others. -/
def ListsKeys (ns : Namespace) : Prop :=
  ((storageGetKeys ns).getD []).Nodup ∧
    ∀ (name : CString) (io : LoadIo), io.Reads →
      (name ∈ (storageGetKeys ns).getD [] ↔
        ∃ key : FileName, key.Plain ∧ key.name = name ∧ ns.load io key ≠ none)

theorem listsKeys_of_tidy (h : Tidy ns.directory) : ListsKeys ns := by
  cases ns with
  | none =>
    refine ⟨nodup_nil, fun name io hio => ?_⟩
    constructor
    · intro hname
      cases hname
    · rintro ⟨key, -, -, hload⟩
      refine absurd ?_ hload
      rfl
  | some directory =>
    refine ⟨nodup_directoryKeys directory, fun name io hio => ?_⟩
    simp only [Namespace.load, storageLoad_eq hio]
    exact Tidy.mem_directoryKeys h

/-- All system calls work. -/
def SaveIo.works : SaveIo := ⟨true, true, none, ⟨true, true, true⟩⟩

def keyA : FileName := ⟨"a".toList, by decide⟩

def keyB : FileName := ⟨"b".toList, by decide⟩

end ZilkerSdk.Config

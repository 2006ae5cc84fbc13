import Mathlib.Algebra.Group.Nat.Defs

/-!
# A file and its backup

Model of `libs/config/c/src/backupUtils.c`: how a file is replaced while its last version is kept as
a backup, and which of the two is read.  What the system calls do is an input.  `ENOENT` is the one
error that `safeFileSave` tells apart from the others, and it follows from what files there are.
-/

namespace ZilkerSdk.Config

/-- The three files that belong together. -/
structure Files (α : Type*) where
  temp : Option α
  original : Option α
  backup : Option α

/-- What the system calls of `safeFileSave` do. -/
structure SaveCalls where
  renameOriginal : Bool
  unlinkBackup : Bool
  renameTemp : Bool

section

variable {α : Type*}

/-- The first half of `safeFileSave`: the file becomes the backup. -/
def keepOriginal (calls : SaveCalls) (files : Files α) : Files α :=
  match files.original with
  | some file =>
    if calls.renameOriginal then { files with original := none, backup := some file } else files
  -- no file: the backup is stale
  | none => if calls.unlinkBackup then { files with backup := none } else files

/-- The second half of `safeFileSave`: the temporary file takes the place of the file. -/
def replaceOriginal (calls : SaveCalls) (files : Files α) : Files α :=
  match files.temp with
  | some file =>
    if calls.renameTemp then { files with temp := none, original := some file } else files
  | none => files

def safeFileSave (calls : SaveCalls) (files : Files α) : Files α :=
  replaceOriginal calls (keepOriginal calls files)

inductive FileToRead where
  | originalFile
  | backupFile
  | fileNotPresent
deriving DecidableEq

/-- `chooseFileToRead`: a file is read if it is there and not empty. -/
def chooseFileToRead (isEmpty : α → Bool) (files : Files α) : FileToRead :=
  if files.original.any fun file => !isEmpty file then .originalFile
  else if files.backup.any fun file => !isEmpty file then .backupFile
  else .fileNotPresent

theorem temp_keepOriginal (calls : SaveCalls) (files : Files α) :
    (keepOriginal calls files).temp = files.temp := by
  unfold keepOriginal
  split <;> split <;> rfl

/-- If its last step works, the temporary file is in place. -/
theorem original_safeFileSave {calls : SaveCalls} {files : Files α} {file : α}
    (htemp : files.temp = some file) (hcall : calls.renameTemp = true) :
    (safeFileSave calls files).original = some file := by
  simp only [safeFileSave, replaceOriginal, temp_keepOriginal, htemp, hcall, if_true]

end

end ZilkerSdk.Config

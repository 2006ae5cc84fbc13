import ZilkerSdk.Util.StringUtils

/-!
# Device descriptors and their versions

Model of `versionInRange` in `libs/device/descriptors/c/src/deviceDescriptors.c` and of
`versionUtils.c`.  A descriptor says for which hardware and which firmware it is meant: for all, for
some that are listed, or for a range.

The comparison of `versionUtils.c` takes the runs of digits out of two texts and compares them as
numbers.  It collects a run in a buffer of 32 characters on the stack and does not look at its end.
A run that is too long for the buffer, or for an `int`, is undefined behaviour, here `none`.
-/

namespace ZilkerSdk.Descriptors

open Lib Types Util

/-! ## Version numbers -/

def defaultArrayLen : Nat := 16

def defaultBuffLen : Nat := 32

/-- `atoi` of a text of digits. -/
def atoi (buffer : CString) : Option Nat :=
  if valueOf 10 buffer < 2 ^ 31 then some (valueOf 10 buffer) else none

/-- The loop of `versionStringToInt`, from a buffer and an array on. -/
def versionRuns : CString → CString → List Nat → Option (CString × List Nat)
  | [], buffer, array => some (buffer, array)
  | c :: rest, buffer, array =>
    if array.length ≥ defaultArrayLen then some (buffer, array)
    else if c.isDigit then
      -- the character and a terminator behind it
      if buffer.length + 1 < defaultBuffLen then versionRuns rest (buffer ++ [c]) array else none
    else if buffer = [] then versionRuns rest [] array
    else (atoi buffer).bind fun number => versionRuns rest [] (array ++ [number])

/-- Is the text a Zigbee version, a number of 32 bits in base 16? -/
def isZigbeeVersion : CString → Bool
  | '0' :: x :: digits => (x = 'x' || x = 'X') && digits.length = 8
  | _ => false

def versionStringToInt (versionStr : CString) : Option (List Nat) :=
  if isZigbeeVersion versionStr then
    -- `sscanf` leaves the result alone when there is no digit
    let digits := (versionStr.drop 2).takeWhile (isDigitOf 16)
    if digits = [] then none else some [valueOf 16 digits]
  else
    (versionRuns versionStr [] []).bind fun found =>
      if found.1 = [] then some found.2 else (atoi found.1).map fun number => found.2 ++ [number]

/-- `compareVersionArrays`: negative if the left one is greater.  What is missing counts as zero. -/
def compareVersionArrays : List Nat → List Nat → Int
  | [], right => if right.any (· ≠ 0) then 1 else 0
  | l :: left, [] => if l ≠ 0 then -1 else compareVersionArrays left []
  | l :: left, r :: right =>
    if l > r then -1 else if l < r then 1 else compareVersionArrays left right

def compareVersionStrings (leftVersion rightVersion : CString) : Option Int := do
  let left ← versionStringToInt leftVersion
  let right ← versionStringToInt rightVersion
  return compareVersionArrays left right

/-! ## The lookup -/

inductive DeviceVersionList where
  | unknown
  | list (versionList : List CString)
  | wildcard
  | range (fromVersion toVersion : Option CString)

def versionInRange (versionInput : Option CString) (allowedVersions : Option DeviceVersionList) :
    Bool :=
  match allowedVersions with
  | none => false
  | some .wildcard => true
  | some (.list versionList) =>
    versionList.any fun allowedVersion => stringCompare (some allowedVersion) versionInput true = 0
  | some (.range (some fromVersion) (some toVersion)) =>
    stringCompare versionInput (some fromVersion) true ≥ 0 &&
      stringCompare versionInput (some toVersion) true ≤ 0
  | some (.range _ _) => false
  | some .unknown => false

end ZilkerSdk.Descriptors

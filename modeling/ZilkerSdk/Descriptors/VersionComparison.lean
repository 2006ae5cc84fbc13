import ZilkerSdk.Descriptors.VersionOrder

/-!
# The comparison of version texts

`compareVersionStrings` compares two versions number by number, as if the shorter one went on with
zeros.  The numbers of a version are its runs of digits, except for a Zigbee version, which is one
number in base 16.
-/

namespace ZilkerSdk.Descriptors

open Lib Types

/-! ## The order -/

/-- The order of two sequences of numbers, padded with zeros to the same length. -/
def paddedOrder (left right : List Nat) : Ordering :=
  let length := max left.length right.length
  List.compareLex compare (padTo length left) (padTo length right)

theorem comparisonResult_nonneg {o : Ordering} : 0 ≤ comparisonResult o ↔ o.isLE := by
  cases o <;> decide

theorem compareVersionArrays_trans {first second third : List Nat}
    (h : 0 ≤ compareVersionArrays first second) (h' : 0 ≤ compareVersionArrays second third) :
    0 ≤ compareVersionArrays first third := by
  -- all three are padded to the length of the longest
  obtain ⟨length, h₁, h₂, h₃⟩ : ∃ length, first.length ≤ length ∧ second.length ≤ length ∧
      third.length ≤ length :=
    ⟨first.length + second.length + third.length, by omega, by omega, by omega⟩
  rw [compareVersionArrays_eq length h₁ h₂, comparisonResult_nonneg] at h
  rw [compareVersionArrays_eq length h₂ h₃, comparisonResult_nonneg] at h'
  rw [compareVersionArrays_eq length h₁ h₃, comparisonResult_nonneg]
  exact Std.TransCmp.isLE_trans h h'

/-! ## The numbers of a text -/

/-- A version as the comparison reads it: a Zigbee version with a digit in base 16, or a text with
at most 16 runs of digits, each a number that fits an `int`, written with fewer than 32 digits. -/
def Readable (s : CString) : Prop :=
  if isZigbeeVersion s then (s.drop 2).takeWhile (isDigitOf 16) ≠ []
  else (digitRuns s).length ≤ defaultArrayLen ∧
    ∀ run ∈ digitRuns s, valueOf 10 run < 2 ^ 31 ∧ run.length < defaultBuffLen

instance (s : CString) : Decidable (Readable s) :=
  inferInstanceAs (Decidable (if isZigbeeVersion s then _ else _))

def versionNumbers (s : CString) : List Nat :=
  if isZigbeeVersion s then [valueOf 16 ((s.drop 2).takeWhile (isDigitOf 16))]
  else (digitRuns s).map (valueOf 10)

theorem Readable.versionStringToInt {s : CString} (h : Readable s) :
    versionStringToInt s = some (versionNumbers s) := by
  unfold Readable at h
  unfold versionNumbers
  split at h
  · rename_i hzigbee
    simp only [Descriptors.versionStringToInt, hzigbee, if_true, h, if_false]
  · rename_i hzigbee
    obtain ⟨hlength, hruns⟩ := h
    rw [versionStringToInt_eq (Bool.eq_false_iff.mpr hzigbee) (fun run hrun => (hruns run hrun).1)
      hlength, if_pos fun run hrun => (hruns run hrun).2, if_neg hzigbee]

theorem Readable.compareVersionStrings {s t : CString} (hs : Readable s) (ht : Readable t) :
    compareVersionStrings s t = some (compareVersionArrays (versionNumbers s) (versionNumbers t)) :=
  compareVersionStrings_eq_some hs.versionStringToInt ht.versionStringToInt

/-- A version that can be read. -/
structure ReadableVersion where
  text : CString
  readable : Readable text

example : Readable "1.0.3.R13".toList ∧ versionNumbers "1.0.3.R13".toList = [1, 0, 3, 13] := by
  decide +kernel

/-- The comparison is the padded order of the numbers, swapping the versions negates it, and it is
transitive. -/
theorem compareVersionStrings_order :
    (∀ v w : ReadableVersion, compareVersionStrings v.text w.text =
      some (comparisonResult (paddedOrder (versionNumbers v.text) (versionNumbers w.text)))) ∧
    (∀ v w : ReadableVersion,
      compareVersionStrings w.text v.text = (compareVersionStrings v.text w.text).map (- ·)) ∧
    ∀ u v w : ReadableVersion, (∃ i ≥ 0, compareVersionStrings u.text v.text = some i) →
      (∃ i ≥ 0, compareVersionStrings v.text w.text = some i) →
      ∃ i ≥ 0, compareVersionStrings u.text w.text = some i := by
  refine ⟨fun v w => ?_, fun v w => ?_, ?_⟩
  · rw [v.readable.compareVersionStrings w.readable,
      compareVersionArrays_eq _ (Nat.le_max_left ..) (Nat.le_max_right ..)]
    rfl
  · rw [v.readable.compareVersionStrings w.readable, w.readable.compareVersionStrings v.readable,
      compareVersionArrays_swap]
    rfl
  · rintro u v w ⟨i, hi, huv⟩ ⟨j, hj, hvw⟩
    rw [u.readable.compareVersionStrings v.readable] at huv
    rw [v.readable.compareVersionStrings w.readable] at hvw
    cases huv
    cases hvw
    exact ⟨_, compareVersionArrays_trans hi hj, u.readable.compareVersionStrings w.readable⟩

/-- The runs of digits of `0x0084089a` are 0 and 84089, those of `0x00840899` are 0 and 840899: in
the order of the runs the second version is greater.  The first one is. -/
theorem zigbee_not_digitRuns :
    let v := "0x0084089a".toList
    let w := "0x00840899".toList
    (digitRuns v).map (valueOf 10) = [0, 84089] ∧ (digitRuns w).map (valueOf 10) = [0, 840899] ∧
      paddedOrder [0, 84089] [0, 840899] = .lt ∧ comparisonResult .lt = 1 ∧
      compareVersionStrings v w = some (-1) := by
  decide +kernel

end ZilkerSdk.Descriptors

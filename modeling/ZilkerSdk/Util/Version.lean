import ZilkerSdk.Util.StringUtils

/-!
# Versions

Model of `libs/util/c/src/version.c`.  A version is printed as five parts with underscores between
them.  The parser does not look at what the conversions of the parts return: a part that is refused
leaves its field zero, and a leading zero chooses base eight.
-/

namespace ZilkerSdk.Util

open Lib Types List

structure IcVersion where
  releaseNumber : UInt8
  serviceUpdateNumber : UInt8
  maintenanceReleaseNumber : UInt8
  hotfixNumber : UInt64
  buildNumber : Int64
  buildNumTolerance : Int32
  isSnapshot : Bool
deriving DecidableEq

def snapshotBuildNumber : Int64 := -99

def snapshotText : CString := "SNAPSHOT".toList

/-- The fields that the tokens give.  Where a conversion fails, the zero that `memset` stored
stays. -/
def IcVersion.ofTokens (tokens : List CString) : IcVersion where
  releaseNumber := UInt8.ofNat ((tokens[0]?.bind stringToUint8).getD 0)
  serviceUpdateNumber := UInt8.ofNat ((tokens[1]?.bind stringToUint8).getD 0)
  maintenanceReleaseNumber := UInt8.ofNat ((tokens[2]?.bind stringToUint8).getD 0)
  hotfixNumber := UInt64.ofNat ((tokens[3]?.bind stringToUint64).getD 0)
  buildNumber :=
    if tokens[4]? = some snapshotText then snapshotBuildNumber
    else Int64.ofInt ((tokens[4]?.bind stringToInt64).getD 0)
  buildNumTolerance := 0
  isSnapshot := tokens[4]? = some snapshotText

def parseVersionString (versionStr : CString) : Bool × IcVersion :=
  let tokens := ((versionStr ++ ['_']).splitOn '_').filter (· ≠ [])
  (2 ≤ tokens.length, .ofTokens tokens)

def produceVersionString (info : IcVersion) : CString :=
  ['_'].intercalate [decimal info.releaseNumber.toNat, decimal info.serviceUpdateNumber.toNat,
    decimal info.maintenanceReleaseNumber.toNat, decimal info.hotfixNumber.toNat,
    if info.isSnapshot then snapshotText else decimalInt info.buildNumber.toInt]

/-- One comparison of `compareVersions`, and what follows it. -/
def compareField (left right : Int) (next : Option Int) : Option Int :=
  if left > right then some (-1) else if right > left then some 1 else next

/-- `compareVersions`.  The sum is undefined if it overflows. -/
def compareVersions (left right : IcVersion) : Option Int :=
  compareField left.releaseNumber.toNat right.releaseNumber.toNat <|
  compareField left.serviceUpdateNumber.toNat right.serviceUpdateNumber.toNat <|
  compareField left.maintenanceReleaseNumber.toNat right.maintenanceReleaseNumber.toNat <|
  compareField left.hotfixNumber.toNat right.hotfixNumber.toNat <|
  if left.isSnapshot || right.isSnapshot then some (-1)
  else
    let build := left.buildNumber.toInt + left.buildNumTolerance.toInt
    if build < -2 ^ 63 ∨ build ≥ 2 ^ 63 then none
    else compareField build right.buildNumber.toInt (some 0)

/-! ## Texts of numerals -/

/-- Two to five numerals with underscores between them.  The fifth may be `SNAPSHOT`. -/
structure VersionText where
  parts : List CString
  atLeast2 : 2 ≤ parts.length
  atMost5 : parts.length ≤ 5
  numerals : ∀ p ∈ parts.zipIdx, IsNumeral p.1 ∨ p.2 = 4 ∧ p.1 = snapshotText

def VersionText.text (t : VersionText) : CString := ['_'].intercalate t.parts

/-- The number in the field of a part. -/
def IcVersion.field (v : IcVersion) : Nat → Int
  | 0 => v.releaseNumber.toNat
  | 1 => v.serviceUpdateNumber.toNat
  | 2 => v.maintenanceReleaseNumber.toNat
  | 3 => v.hotfixNumber.toNat
  | _ => v.buildNumber.toInt

/-- The largest number that the field of a part can hold. -/
def fieldMax : Nat → Nat
  | 3 => 2 ^ 64 - 1
  | 4 => 2 ^ 63 - 1
  | _ => 2 ^ 8 - 1

/-- What a part stands for; one that is missing stands for zero. -/
def VersionText.value (t : VersionText) (i : Nat) : Int :=
  match t.parts[i]? with
  | none => 0
  | some part => if part = snapshotText then snapshotBuildNumber.toInt else valueOf 10 part

/-- A text that is accepted has only numerals that fit, and is read as what it stands for. -/
def VersionText.Faithful (t : VersionText) : Prop :=
  (parseVersionString t.text).1 = true →
    (∀ i part, t.parts[i]? = some part → IsNumeral part → valueOf 10 part ≤ fieldMax i) ∧
      (∀ i < 5, (parseVersionString t.text).2.field i = t.value i) ∧
      (parseVersionString t.text).2.isSnapshot = (t.parts[4]? = some snapshotText)

/-- Every numeral fits its field, and none from eight on has a leading zero. -/
def VersionText.Plain (t : VersionText) : Prop :=
  ∀ i part, t.parts[i]? = some part → IsNumeral part →
    valueOf 10 part ≤ fieldMax i ∧ (part.head? ≠ some '0' ∨ valueOf 10 part < 8)

variable {part : CString} {parts : List CString} {i max : Nat}

theorem intercalate_append_sep (sep : CString) (h : parts ≠ []) :
    sep.intercalate parts ++ sep = sep.intercalate (parts ++ [[]]) := by
  induction parts with
  | nil => exact absurd rfl h
  | cons part parts ih =>
    cases parts with
    | nil => simp
    | cons next parts =>
      have hrest := ih (cons_ne_nil _ _)
      simp only [cons_append, intercalate_cons_cons, append_assoc] at hrest ⊢
      rw [hrest]

/-- The tokens of a text are its parts. -/
theorem parseVersionString_intercalate (hlength : 2 ≤ parts.length)
    (h : ∀ part ∈ parts, part ≠ [] ∧ '_' ∉ part) :
    parseVersionString (['_'].intercalate parts) = (true, .ofTokens parts) := by
  have hne : parts ≠ [] := ne_nil_of_length_pos (by omega)
  have hsep : ∀ part ∈ parts ++ [[]], '_' ∉ part :=
    forall_mem_append.mpr ⟨fun part hpart => (h part hpart).2, by simp⟩
  have htokens : (parts ++ [[]]).filter (· ≠ []) = parts := by
    have hself : parts.filter (· ≠ []) = parts :=
      filter_eq_self.mpr fun part hpart => by simpa using (h part hpart).1
    rw [filter_append, hself]
    simp
  rw [parseVersionString, intercalate_append_sep _ hne,
    splitOn_intercalate _ hsep (by simp), htokens]
  simp [hlength]

/-! ## Numerals -/

/-- What the conversion of a numeral leaves in a field. -/
def stored (max : Nat) (part : CString) : Nat :=
  let found := scanInteger 0 part
  if found.rest = [] ∧ found.magnitude ≤ max then found.magnitude else 0

theorem stored_le (max : Nat) (part : CString) : stored max part ≤ max := by
  rw [stored]
  split
  · rename_i h
    exact h.2
  · exact Nat.zero_le max

section

variable (h : IsNumeral part)
include h

/-- A numeral that fits is stored as what it stands for unless base eight changes that. -/
theorem stored_eq_iff (hfits : valueOf 10 part ≤ max) :
    stored max part = valueOf 10 part ↔ part.head? ≠ some '0' ∨ valueOf 10 part < 8 := by
  by_cases hhead : part.head? = some '0'
  · have hmono : valueOf 8 part ≤ valueOf 10 part := valueOf_mono (by decide) part
    have hscan := scanInteger_digits h.2 h.1 false (if_pos hhead)
    rw [if_neg Bool.false_ne_true] at hscan
    rw [← octal_iff h.2, stored, hscan]
    by_cases hoctal : ∀ c ∈ part, isDigitOf 8 c
    · rw [takeWhile_eq_self_iff.mpr hoctal, dropWhile_eq_nil_iff.mpr hoctal]
      have hle : valueOf 8 part ≤ max := by omega
      simp only [hle, and_self, if_true, hhead, ne_eq, not_true_eq_false, false_or]
      exact (and_iff_right hoctal).symm
    · -- the zero that stays is not what a numeral with an eight or a nine stands for
      have hrest : part.dropWhile (isDigitOf 8) ≠ [] := mt dropWhile_eq_nil_iff.mp hoctal
      have hpos : valueOf 10 part ≠ 0 := by
        intro hzero
        exact hoctal ((octal_iff h.2).mpr (by omega)).1
      simp [hhead, hoctal, hrest, hpos.symm]
  · have hscan := scanInteger_ten h.2 h.1 hhead false
    rw [if_neg Bool.false_ne_true] at hscan
    simp [stored, hscan, hfits, hhead]

theorem stringToUnsigned_numeral (hmax : max < 2 ^ 64) :
    (stringToUnsignedNumberWithinRange part 0 0 max).getD 0 = stored max part := by
  have hsign : '-' ∉ part := fun hmem => by cases h.2 _ hmem
  rw [stringToUnsignedNumberWithinRange, if_neg hsign, stored]
  grind

theorem stringToInt64_numeral :
    (stringToInt64 part).getD 0 = stored (2 ^ 63 - 1) part := by
  have hscan := scanInteger_digits h.2 h.1 false rfl
  rw [if_neg Bool.false_ne_true] at hscan
  have hvalue : (scanInteger 0 part).toInt = (scanInteger 0 part).magnitude := by
    rw [hscan]
    rfl
  have hbound : (2 : Int) ^ 63 = (2 ^ 63 - 1 : Nat) + 1 := by decide
  rw [stringToInt64, stringToNumberWithinRange, hvalue, stored, hbound]
  generalize 2 ^ 63 - 1 = max
  grind

theorem ne_snapshot : part ≠ snapshotText := by
  rintro rfl
  have hletter := h.2 'S' (by decide)
  cases hletter

end

/-! ## The fields -/

theorem field_numeral (h : parts[i]? = some part) (hi : i < 5) (hpart : IsNumeral part) :
    (IcVersion.ofTokens parts).field i = stored (fieldMax i) part := by
  have hnumber8 : ∀ j : Nat, parts[j]? = some part →
      (UInt8.ofNat ((parts[j]?.bind stringToUint8).getD 0)).toNat = stored (2 ^ 8 - 1) part := by
    intro j hj
    rw [hj, Option.bind_some, stringToUint8, stringToUnsigned_numeral hpart (by decide)]
    exact UInt8.toNat_ofNat_of_lt' (Nat.lt_succ_of_le (stored_le _ _))
  obtain rfl | rfl | rfl | rfl | rfl : i = 0 ∨ i = 1 ∨ i = 2 ∨ i = 3 ∨ i = 4 := by omega
  · exact congrArg Nat.cast (hnumber8 0 h)
  · exact congrArg Nat.cast (hnumber8 1 h)
  · exact congrArg Nat.cast (hnumber8 2 h)
  · show ((UInt64.ofNat ((parts[3]?.bind stringToUint64).getD 0)).toNat : Int) = _
    rw [h, Option.bind_some, stringToUint64, stringToUnsigned_numeral hpart (by decide)]
    exact congrArg Nat.cast (UInt64.toNat_ofNat_of_lt' (Nat.lt_succ_of_le (stored_le _ _)))
  · have hle := stored_le (2 ^ 63 - 1) part
    have hno : parts[4]? ≠ some snapshotText := by
      rw [h]
      exact fun heq => ne_snapshot hpart (Option.some.inj heq)
    show Int64.toInt (if parts[4]? = some snapshotText then _ else _) = _
    rw [if_neg hno, h, Option.bind_some, stringToInt64_numeral hpart]
    exact Int64.toInt_ofInt_of_le (by omega) (by omega)

theorem field_missing (h : parts[i]? = none) (hi : i < 5) :
    (IcVersion.ofTokens parts).field i = 0 := by
  obtain rfl | rfl | rfl | rfl | rfl : i = 0 ∨ i = 1 ∨ i = 2 ∨ i = 3 ∨ i = 4 := by omega
  all_goals simp [IcVersion.ofTokens, IcVersion.field, h]

theorem VersionText.parse_text (t : VersionText) :
    parseVersionString t.text = (true, .ofTokens t.parts) := by
  apply parseVersionString_intercalate t.atLeast2
  intro part hpart
  obtain ⟨i, hi⟩ := mem_iff_getElem?.mp hpart
  obtain hnumeral | ⟨-, rfl⟩ := t.numerals (part, i) (mem_zipIdx_iff_getElem?.mpr hi)
  · exact ⟨hnumeral.1, fun hmem => by cases hnumeral.2 _ hmem⟩
  · decide

/-- A numeral is read as what it stands for if it fits and base eight does not change that. -/
theorem VersionText.field_eq_value_iff (t : VersionText) (h : t.parts[i]? = some part)
    (hpart : IsNumeral part) (hfits : valueOf 10 part ≤ fieldMax i) :
    (IcVersion.ofTokens t.parts).field i = t.value i ↔
      part.head? ≠ some '0' ∨ valueOf 10 part < 8 := by
  have hi : i < 5 := Nat.lt_of_lt_of_le (List.getElem?_eq_some_iff.mp h).1 t.atMost5
  have hvalue : t.value i = valueOf 10 part := by
    simp only [VersionText.value, h, if_neg (ne_snapshot hpart)]
  rw [field_numeral h hi hpart, hvalue, Int.natCast_inj, stored_eq_iff hpart hfits]

theorem VersionText.faithful_iff (t : VersionText) : t.Faithful ↔ t.Plain := by
  rw [VersionText.Faithful, t.parse_text]
  constructor
  · intro h i part hpart hnumeral
    obtain ⟨hfits, hfields, -⟩ := h rfl
    have hi : i < 5 := Nat.lt_of_lt_of_le (List.getElem?_eq_some_iff.mp hpart).1 t.atMost5
    have hle := hfits i part hpart hnumeral
    exact ⟨hle, (t.field_eq_value_iff hpart hnumeral hle).mp (hfields i hi)⟩
  · intro h _
    refine ⟨fun i part hpart hnumeral => (h i part hpart hnumeral).1, fun i hi => ?_, ?_⟩
    · cases hpart : t.parts[i]? with
      | none =>
        rw [field_missing hpart hi]
        simp only [VersionText.value, hpart]
      | some part =>
        obtain hnumeral | ⟨rfl, rfl⟩ := t.numerals (part, i) (mem_zipIdx_iff_getElem?.mpr hpart)
        · obtain ⟨hle, hbase⟩ := h i part hpart hnumeral
          exact (t.field_eq_value_iff hpart hnumeral hle).mpr hbase
        · simp [IcVersion.ofTokens, IcVersion.field, VersionText.value, hpart]
    · simp [IcVersion.ofTokens]

/-- Exactly the texts whose numerals fit, and have no leading zero unless they stand for less than
eight, are read as what they stand for; two of them give the same version only if all their
numerals agree. -/
theorem parseVersionString_faithful_iff (t : VersionText) :
    (t.Faithful ↔ t.Plain) ∧
      (t.Plain → ∀ u : VersionText, u.Plain →
        (parseVersionString t.text).2 = (parseVersionString u.text).2 →
        ∀ i < 5, t.value i = u.value i) := by
  refine ⟨t.faithful_iff, fun ht u hu hsame i hi => ?_⟩
  obtain ⟨-, htext, -⟩ := t.faithful_iff.mpr ht (congrArg Prod.fst t.parse_text)
  obtain ⟨-, hother, -⟩ := u.faithful_iff.mpr hu (congrArg Prod.fst u.parse_text)
  rw [← htext i hi, ← hother i hi, hsame]

/-- The release 300 is accepted and becomes 0, and the release 010 becomes 8. -/
theorem version_not_faithful :
    ∃ t u : VersionText, t.text = "300_1".toList ∧ u.text = "010_1".toList ∧
      parseVersionString t.text = (true, ⟨0, 1, 0, 0, 0, 0, false⟩) ∧
      parseVersionString u.text = (true, ⟨8, 1, 0, 0, 0, 0, false⟩) ∧
      ¬ t.Faithful ∧ ¬ u.Faithful := by
  refine ⟨⟨["300".toList, "1".toList], by decide, by decide, by decide⟩,
    ⟨["010".toList, "1".toList], by decide, by decide, by decide⟩, by decide, by decide,
    by rw [VersionText.parse_text]; decide, by rw [VersionText.parse_text]; decide, ?_, ?_⟩
  · rw [VersionText.faithful_iff]
    intro hplain
    have hfits := (hplain 0 "300".toList rfl (by decide)).1
    revert hfits
    decide
  · rw [VersionText.faithful_iff]
    intro hplain
    have hzero := (hplain 0 "010".toList rfl (by decide)).2
    revert hzero
    decide

/-! ## Printed versions -/

/-- A snapshot has no other build number than the one of snapshots. -/
def IcVersion.Printable (v : IcVersion) : Prop :=
  v.isSnapshot = false ∧ 0 ≤ v.buildNumber.toInt ∨
    v.isSnapshot = true ∧ v.buildNumber = snapshotBuildNumber

theorem decimalInt_text (n : Int) :
    decimalInt n ≠ [] ∧ ∀ c ∈ decimalInt n, c = '-' ∨ c.isDigit := by
  unfold decimalInt
  split
  · refine ⟨cons_ne_nil _ _, forall_mem_cons.mpr ⟨.inl rfl, ?_⟩⟩
    exact fun c hc => .inr (isDigit_of_mem_decimal hc)
  · exact ⟨decimal_ne_nil _, fun c hc => .inr (isDigit_of_mem_decimal hc)⟩

/-- A printed version is read back. -/
theorem parse_produce {v : IcVersion} (htolerance : v.buildNumTolerance = 0)
    (h : v.Printable) : parseVersionString (produceVersionString v) = (true, v) := by
  have hdecimal : ∀ n, decimal n ≠ [] ∧ '_' ∉ decimal n := fun n =>
    ⟨decimal_ne_nil n, fun hmem => by cases isDigit_of_mem_decimal hmem⟩
  obtain ⟨hne, hchars⟩ := decimalInt_text v.buildNumber.toInt
  have hbuild : decimalInt v.buildNumber.toInt ≠ snapshotText := fun heq =>
    absurd (hchars 'S' (heq ▸ by decide)) (by decide)
  have hread : stringToInt64 (decimalInt v.buildNumber.toInt) = some v.buildNumber.toInt :=
    stringToNumberWithinRange_decimalInt v.buildNumber.le_toInt
      (Int.le_sub_one_of_lt v.buildNumber.toInt_lt) (by decide) (by decide)
  rw [produceVersionString, parseVersionString_intercalate (by simp)]
  · obtain ⟨release, update, maintenance, hotfix, build, tolerance, snapshot⟩ := v
    obtain rfl : tolerance = 0 := htolerance
    obtain ⟨rfl, -⟩ | ⟨rfl, rfl⟩ := h
    · simp [IcVersion.ofTokens, stringToUint8_decimal (UInt8.toNat_lt _),
        stringToUint64_decimal (UInt64.toNat_lt _), hbuild, hread]
    · simp [IcVersion.ofTokens, stringToUint8_decimal (UInt8.toNat_lt _),
        stringToUint64_decimal (UInt64.toNat_lt _)]
  · simp only [forall_mem_cons]
    refine ⟨hdecimal _, hdecimal _, hdecimal _, hdecimal _, ?_, fun _ h => by cases h⟩
    split
    · decide
    · exact ⟨hne, fun hmem => absurd (hchars '_' hmem) (by decide)⟩

/-! ## The order -/

/-- The numbers of a version, the most significant one first. -/
def IcVersion.numbers (v : IcVersion) : List Int :=
  [v.releaseNumber.toNat, v.serviceUpdateNumber.toNat, v.maintenanceReleaseNumber.toNat,
    v.hotfixNumber.toNat, v.buildNumber.toInt]

/-- How `compareVersions` answers. -/
def answerOf : Ordering → Int
  | .gt => -1
  | .eq => 0
  | .lt => 1

def IcVersion.Ordered (v : IcVersion) : Prop := v.isSnapshot = false ∧ v.buildNumTolerance = 0

theorem compareField_eq (left right : Int) (o : Ordering) :
    compareField left right (some (answerOf o)) =
      some (answerOf ((compare left right).then o)) := by
  obtain hlt | rfl | hgt := Int.lt_trichotomy left right
  · rw [compareField, if_neg (by omega), if_pos hlt, Int.compare_eq_lt.mpr hlt]
    rfl
  · simp [compareField]
  · rw [compareField, if_pos hgt, Int.compare_eq_gt.mpr hgt]
    rfl

variable {left right : IcVersion}

theorem compareVersions_eq (hl : left.Ordered) (hr : right.Ordered) :
    compareVersions left right =
      some (answerOf (List.compareLex compare left.numbers right.numbers)) := by
  have hlow := left.buildNumber.le_toInt
  have hhigh := left.buildNumber.toInt_lt
  have hsum : ¬ (left.buildNumber.toInt < -2 ^ 63 ∨ left.buildNumber.toInt ≥ 2 ^ 63) := by omega
  have hzero : some 0 = some (answerOf (List.compareLex compare ([] : List Int) [])) := rfl
  simp only [compareVersions, hl.1, hr.1, hl.2, Int32.toInt_zero, Int.add_zero, Bool.or_false,
    Bool.false_eq_true, if_false, if_neg hsum, hzero, compareField_eq, IcVersion.numbers,
    List.compareLex_cons_cons]

theorem numbers_inj (hl : left.Ordered) (hr : right.Ordered) :
    left.numbers = right.numbers ↔ left = right := by
  refine ⟨fun h => ?_, fun h => h ▸ rfl⟩
  obtain ⟨hlsnapshot, hltolerance⟩ := hl
  obtain ⟨hrsnapshot, hrtolerance⟩ := hr
  simp only [IcVersion.numbers, cons.injEq, Int.natCast_inj, UInt8.toNat_inj, UInt64.toNat_inj,
    Int64.toInt_inj] at h
  cases left
  cases right
  simp_all

/-- Printed versions are read back, and releases are ordered lexicographically by their numbers. -/
theorem version_laws :
    (∀ v : IcVersion, v.buildNumTolerance = 0 → v.Printable →
      parseVersionString (produceVersionString v) = (true, v)) ∧
    (∀ left right : IcVersion, left.Ordered → right.Ordered →
      compareVersions left right =
        some (answerOf (List.compareLex compare left.numbers right.numbers)) ∧
      (compareVersions left right = some 0 ↔ left = right) ∧
      compareVersions right left = (compareVersions left right).map fun answer => -answer) ∧
    (∀ a b c : IcVersion, a.Ordered → b.Ordered → c.Ordered → ∀ answer,
      compareVersions a b = some answer → compareVersions b c = some answer →
      compareVersions a c = some answer) := by
  have hinj : ∀ o o' : Ordering, answerOf o = answerOf o' ↔ o = o' := by decide
  refine ⟨fun v => parse_produce, fun left right hl hr => ⟨compareVersions_eq hl hr, ?_, ?_⟩, ?_⟩
  · rw [compareVersions_eq hl hr, Option.some.injEq, show (0 : Int) = answerOf .eq from rfl, hinj,
      Std.LawfulEqCmp.compare_eq_iff_eq, numbers_inj hl hr]
  · rw [compareVersions_eq hl hr, compareVersions_eq hr hl,
      @Std.OrientedCmp.eq_swap _ (List.compareLex compare) _ right.numbers]
    cases List.compareLex compare left.numbers right.numbers <;> rfl
  · intro a b c ha hb hc answer hab hbc
    rw [compareVersions_eq ha hb, Option.some.injEq] at hab
    rw [compareVersions_eq hb hc, ← hab, Option.some.injEq, hinj] at hbc
    rw [compareVersions_eq ha hc, ← hab, Option.some.injEq, hinj]
    cases hfirst : List.compareLex compare a.numbers b.numbers with
    | lt => exact Std.TransCmp.lt_trans hfirst (hbc.trans hfirst)
    | eq => exact Std.TransCmp.eq_trans hfirst (hbc.trans hfirst)
    | gt => exact Std.TransCmp.gt_trans hfirst (hbc.trans hfirst)

/-- The same release as a snapshot and with a build number. -/
theorem version_laws_applied :
    parseVersionString (produceVersionString ⟨7, 2, 0, 0, -99, 0, true⟩) =
      (true, ⟨7, 2, 0, 0, -99, 0, true⟩) ∧
    (compareVersions ⟨7, 2, 0, 0, 5, 0, false⟩ ⟨7, 3, 0, 0, 1, 0, false⟩ = some 0 ↔
      (⟨7, 2, 0, 0, 5, 0, false⟩ : IcVersion) = ⟨7, 3, 0, 0, 1, 0, false⟩) :=
  ⟨version_laws.1 _ rfl (.inr ⟨rfl, rfl⟩), (version_laws.2.1 _ _ ⟨rfl, rfl⟩ ⟨rfl, rfl⟩).2.1⟩

/-- A snapshot with a build number of its own comes back with the one of snapshots. -/
theorem numbered_snapshot_changed :
    0 ≤ Int64.toInt 5 ∧ parseVersionString (produceVersionString ⟨7, 2, 0, 0, 5, 0, true⟩) =
      (true, ⟨7, 2, 0, 0, -99, 0, true⟩) ∧
      (⟨7, 2, 0, 0, -99, 0, true⟩ : IcVersion) ≠ ⟨7, 2, 0, 0, 5, 0, true⟩ := by
  decide +kernel

end ZilkerSdk.Util

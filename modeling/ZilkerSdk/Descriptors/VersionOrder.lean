import ZilkerSdk.Descriptors.Model
import ZilkerSdk.Lib.NumeralOrder

/-!
# The order of versions

A version is compared in two ways: as a text, character by character, and by the numbers in it.  Two
numbers are in order as texts if they have the same number of digits.  So what matters is the layout
of a version: how many digits each of its runs has.
-/

namespace ZilkerSdk.Descriptors

open Lib Types Util List

/-! ## Version texts -/

/-- Runs of digits with dots between them.  A plain number is the case of one run. -/
structure DottedVersion where
  runs : List (List Char)
  nonempty : runs ≠ []
  atMost16 : runs.length ≤ 16
  digits : ∀ run ∈ runs, run ≠ [] ∧ ∀ c ∈ run, c.isDigit
  fitsInt : ∀ run ∈ runs, valueOf 10 run < 2 ^ 31

/-- A Zigbee version: a number of 32 bits in base 16. -/
structure HexVersion where
  marker : Char
  digits : List Char
  isMarker : marker = 'x' ∨ marker = 'X'
  length : digits.length = 8
  isHex : ∀ c ∈ digits, isDigitOf 16 c

/-- What stands behind the first run. -/
def dotted (runs : List (List Char)) : List Char := runs.flatMap ('.' :: ·)

def DottedVersion.text (v : DottedVersion) : CString := v.runs.head v.nonempty ++ dotted v.runs.tail

def HexVersion.text (v : HexVersion) : CString := '0' :: v.marker :: v.digits

/-- A version in one of the two notations. -/
inductive Version where
  | decimal (v : DottedVersion)
  | hex (v : HexVersion)

def Version.text : Version → CString
  | .decimal v => v.text
  | .hex v => v.text

/-- How many digits the runs have. -/
def DottedVersion.layout (v : DottedVersion) : List Nat := v.runs.map List.length

/-- The layout of a version.  All Zigbee versions have the same one. -/
def Version.layout : Version → Option (List Nat)
  | .decimal v => some v.layout
  | .hex _ => none

/-- Both versions are dotted, or both are Zigbee versions. -/
def Version.SameNotation (v w : Version) : Prop := v.layout.isSome = w.layout.isSome

/-! ## What the comparison of numbers finds -/

variable {run x y : List Char}

theorem atoi_of_fits (h : valueOf 10 run < 2 ^ 31) :
    atoi run = some (valueOf 10 run) := if_pos h

/-- The maximal runs of digits in a text. -/
def digitRuns (s : CString) : List (List Char) :=
  (s.splitOnP fun c => !c.isDigit).filter (· ≠ [])

theorem not_separator (h : ∀ c ∈ run, c.isDigit) :
    ∀ c ∈ run, (!c.isDigit) = false := fun c hc => by rw [h c hc, Bool.not_true]

theorem digitRuns_digits (h : ∀ c ∈ run, c.isDigit) :
    digitRuns run = if run = [] then [] else [run] := by
  rw [digitRuns, splitOnP_eq_singleton (not_separator h)]
  by_cases hrun : run = [] <;> simp [hrun]

/-- A separator ends the run in front of it. -/
theorem digitRuns_append_cons (h : ∀ c ∈ run, c.isDigit) {c : Char} (hc : ¬ c.isDigit)
    (rest : CString) :
    digitRuns (run ++ c :: rest) = (if run = [] then [] else [run]) ++ digitRuns rest := by
  have hsep : (!c.isDigit) = true := by simp [hc]
  rw [digitRuns, splitOnP_append_cons_of_forall_mem (not_separator h) c hsep]
  by_cases hrun : run = [] <;> simp [hrun, digitRuns]

/-- Digits at the beginning are part of a run. -/
theorem exists_digitRun_ge (h : ∀ c ∈ run, c.isDigit) (hne : run ≠ []) (rest : CString) :
    ∃ r ∈ digitRuns (run ++ rest), run.length ≤ r.length := by
  induction rest generalizing run with
  | nil =>
    rw [append_nil, digitRuns_digits h, if_neg hne]
    exact ⟨run, mem_singleton_self run, Nat.le_refl _⟩
  | cons c rest ih =>
    by_cases hc : c.isDigit
    · have hdigits : ∀ d ∈ run ++ [c], d.isDigit :=
        forall_mem_append.mpr ⟨h, forall_mem_singleton.mpr hc⟩
      obtain ⟨r, hr, hlength⟩ := ih hdigits (by simp)
      rw [append_assoc] at hr
      rw [length_append] at hlength
      exact ⟨r, hr, by omega⟩
    · rw [digitRuns_append_cons h hc, if_neg hne]
      exact ⟨run, mem_cons_self, Nat.le_refl _⟩

/-- The runs of digits are collected as long as each of them fits the buffer.  The buffer holds what
has been read of the run at hand. -/
theorem versionRuns_eq (s buffer : List Char) (array : List Nat) (hbuffer : ∀ c ∈ buffer, c.isDigit)
    (hlength : buffer.length < defaultBuffLen)
    (hfits : ∀ r ∈ digitRuns (buffer ++ s), valueOf 10 r < 2 ^ 31)
    (hroom : array.length + (digitRuns (buffer ++ s)).length ≤ defaultArrayLen) :
    ((versionRuns s buffer array).bind fun found =>
        if found.1 = [] then some found.2
        else (atoi found.1).map fun number => found.2 ++ [number]) =
      if ∀ r ∈ digitRuns (buffer ++ s), r.length < defaultBuffLen then
        some (array ++ (digitRuns (buffer ++ s)).map (valueOf 10))
      else none := by
  fun_induction versionRuns s buffer array with
  | case1 buffer array =>
    rw [append_nil, digitRuns_digits hbuffer] at *
    by_cases hne : buffer = []
    · simp [hne]
    · rw [if_neg hne] at hfits
      have hatoi := atoi_of_fits (hfits buffer (mem_singleton_self buffer))
      simp [hne, hlength, hatoi]
  | case2 c s buffer array hfull =>
    -- the array is full, so no digit is left
    have hnone : digitRuns (buffer ++ c :: s) = [] := length_eq_zero_iff.mp (by omega)
    have hempty : buffer = [] := by
      by_contra hne
      obtain ⟨r, hr, -⟩ := exists_digitRun_ge hbuffer hne (c :: s)
      rw [hnone] at hr
      cases hr
    rw [hnone, hempty]
    simp
  | case3 c s buffer array _ hc hshort ih =>
    rw [append_cons buffer c s] at hfits hroom ⊢
    exact ih (forall_mem_append.mpr ⟨hbuffer, forall_mem_singleton.mpr hc⟩) (by simpa using hshort)
      hfits hroom
  | case4 c s buffer array _ hc hlong =>
    rw [append_cons buffer c s]
    obtain ⟨r, hr, hge⟩ := exists_digitRun_ge
      (forall_mem_append.mpr ⟨hbuffer, forall_mem_singleton.mpr hc⟩) (by simp) s
    rw [length_append, length_singleton] at hge
    rw [if_neg fun h => hlong (Nat.lt_of_le_of_lt hge (h r hr))]
    rfl
  | case5 c s array _ hc ih =>
    rw [digitRuns_append_cons hbuffer hc] at hfits hroom ⊢
    exact ih (forall_mem_nil _) (by decide) hfits hroom
  | case6 c s buffer array _ hc hne ih =>
    rw [digitRuns_append_cons hbuffer hc] at hfits hroom ⊢
    simp only [hne, if_false, singleton_append, forall_mem_cons, length_cons] at hfits hroom
    have hrest := ih (valueOf 10 buffer) (forall_mem_nil _) (by decide)
      hfits.2 (by rw [length_append, length_singleton, nil_append]; omega)
    rw [atoi_of_fits hfits.1, Option.bind_some, hrest]
    simp [hne, hlength]

/-- A text of digits and separators is read as the numbers in it, unless a run of digits does not
fit the buffer. -/
theorem versionStringToInt_eq {s : CString} (hzigbee : isZigbeeVersion s = false)
    (hfits : ∀ r ∈ digitRuns s, valueOf 10 r < 2 ^ 31)
    (hruns : (digitRuns s).length ≤ defaultArrayLen) :
    versionStringToInt s =
      if ∀ r ∈ digitRuns s, r.length < defaultBuffLen then some ((digitRuns s).map (valueOf 10))
      else none := by
  rw [versionStringToInt, hzigbee, if_neg Bool.false_ne_true]
  exact versionRuns_eq s [] [] (forall_mem_nil _) (by decide) hfits
    ((Nat.zero_add _).trans_le hruns)

theorem digitRuns_dotted {runs : List (List Char)}
    (h : ∀ run ∈ runs, run ≠ [] ∧ ∀ c ∈ run, c.isDigit) : digitRuns (dotted runs) = runs := by
  have hdot : ¬ ('.' : Char).isDigit := by decide
  have hstep : ∀ s, digitRuns ('.' :: s) = digitRuns s :=
    fun s => digitRuns_append_cons (forall_mem_nil _) hdot s
  induction runs with
  | nil => rfl
  | cons run runs ih =>
    obtain ⟨⟨hne, hrun⟩, hruns⟩ := forall_mem_cons.mp h
    rw [dotted, flatMap_cons, cons_append, hstep]
    cases runs with
    | nil => rw [flatMap_nil, append_nil, digitRuns_digits hrun, if_neg hne]
    | cons next runs =>
      have hrest := ih hruns
      rw [dotted, flatMap_cons, cons_append, hstep] at hrest
      rw [flatMap_cons, cons_append, digitRuns_append_cons hrun hdot, if_neg hne, hrest]
      rfl

section

variable (v : DottedVersion)
include v

theorem DottedVersion.of_mem_text {c : Char} (h : c ∈ v.text) :
    c.isDigit ∨ c = '.' := by
  rw [DottedVersion.text, mem_append, dotted, mem_flatMap] at h
  obtain h | ⟨run, hrun, h⟩ := h
  · exact .inl ((v.digits _ (head_mem v.nonempty)).2 c h)
  · obtain rfl | h := mem_cons.mp h
    · exact .inr rfl
    · exact .inl ((v.digits run (mem_of_mem_tail hrun)).2 c h)

theorem DottedVersion.isZigbeeVersion_text : isZigbeeVersion v.text = false := by
  have hnot : 'x' ∉ v.text ∧ 'X' ∉ v.text :=
    ⟨fun h => absurd (v.of_mem_text h) (by decide), fun h => absurd (v.of_mem_text h) (by decide)⟩
  unfold isZigbeeVersion
  split
  · rename_i x digits htext
    have hmem : x ∈ v.text := by simp [htext]
    have hx : x ≠ 'x' ∧ x ≠ 'X' := ⟨fun h => hnot.1 (h ▸ hmem), fun h => hnot.2 (h ▸ hmem)⟩
    simp [hx.1, hx.2]
  · rfl

theorem DottedVersion.dotted_runs : dotted v.runs = '.' :: v.text := by
  conv_lhs => rw [← cons_head_tail v.nonempty]
  rfl

theorem DottedVersion.digitRuns_text : digitRuns v.text = v.runs := by
  rw [← digitRuns_dotted v.digits, v.dotted_runs]
  exact (digitRuns_append_cons (forall_mem_nil _) (by decide) v.text).symm

/-- The runs of digits are found as numbers, unless one of them does not fit the buffer. -/
theorem DottedVersion.versionStringToInt_text :
    versionStringToInt v.text =
      if ∀ n ∈ v.layout, n < defaultBuffLen then some (v.runs.map (valueOf 10)) else none := by
  have hlayout : (∀ n ∈ v.layout, n < defaultBuffLen) ↔ ∀ r ∈ v.runs, r.length < defaultBuffLen :=
    forall_mem_map
  have hfound := versionStringToInt_eq v.isZigbeeVersion_text
  rw [v.digitRuns_text] at hfound
  rw [hfound v.fitsInt v.atMost16]
  exact if_congr hlayout.symm rfl rfl

end

theorem HexVersion.versionStringToInt_text (v : HexVersion) :
    versionStringToInt v.text = some [valueOf 16 v.digits] := by
  have hzigbee : isZigbeeVersion v.text = true := by
    simp [isZigbeeVersion, HexVersion.text, v.isMarker, v.length]
  have hne : v.digits ≠ [] := by
    intro h
    have := v.length
    rw [h] at this
    cases this
  have htake : (v.text.drop 2).takeWhile (isDigitOf 16) = v.digits :=
    takeWhile_eq_self_iff.mpr v.isHex
  simp only [versionStringToInt, hzigbee, if_true, htake, hne, if_false]

theorem compareVersionStrings_eq_some {left right : CString} {xs ys : List Nat}
    (hleft : versionStringToInt left = some xs) (hright : versionStringToInt right = some ys) :
    compareVersionStrings left right = some (compareVersionArrays xs ys) := by
  rw [compareVersionStrings, hleft, hright]
  rfl

/-! ## The order of the numbers -/

/-- The numbers and as many zeros as are missing. -/
def padTo (length : Nat) (numbers : List Nat) : List Nat :=
  numbers ++ List.replicate (length - numbers.length) 0

/-- The results of the comparison: negative if the left one is greater. -/
def comparisonResult : Ordering → Int
  | .gt => -1
  | .eq => 0
  | .lt => 1

theorem padTo_succ (length : Nat) (numbers : List Nat) :
    padTo (length + 1) numbers = numbers.headD 0 :: padTo length numbers.tail := by
  cases numbers with
  | nil => rfl
  | cons n numbers => simp [padTo]

/-- One turn of the loops, where a number that is missing is zero. -/
theorem compareVersionArrays_headD (left right : List Nat) :
    compareVersionArrays left right =
      if left.headD 0 > right.headD 0 then -1 else if left.headD 0 < right.headD 0 then 1
      else compareVersionArrays left.tail right.tail := by
  cases left with
  | nil =>
    cases right with
    | nil => rfl
    | cons r right =>
      by_cases hr : r = 0
      · simp [compareVersionArrays, hr]
      · simp [compareVersionArrays, hr, Nat.pos_of_ne_zero]
  | cons l left =>
    cases right with
    | nil =>
      by_cases hl : l = 0
      · simp [compareVersionArrays, hl]
      · simp [compareVersionArrays, hl, Nat.pos_of_ne_zero]
    | cons r right => rfl

/-- Both loops together compare the padded sequences, whatever they are padded to. -/
theorem compareVersionArrays_eq (length : Nat) {left right : List Nat}
    (hleft : left.length ≤ length) (hright : right.length ≤ length) :
    compareVersionArrays left right =
      comparisonResult (List.compareLex compare (padTo length left) (padTo length right)) := by
  induction length generalizing left right with
  | zero =>
    rw [length_eq_zero_iff.mp (Nat.le_zero.mp hleft), length_eq_zero_iff.mp (Nat.le_zero.mp hright)]
    rfl
  | succ length ih =>
    have htail : left.tail.length ≤ length := by
      rw [length_tail]
      omega
    have htail' : right.tail.length ≤ length := by
      rw [length_tail]
      omega
    rw [compareVersionArrays_headD, padTo_succ, padTo_succ, List.compareLex_cons_cons,
      ih htail htail']
    -- the first numbers decide, unless they are equal
    obtain hlt | heq | hgt := Nat.lt_trichotomy (left.headD 0) (right.headD 0)
    · rw [if_neg (by omega), if_pos hlt, Nat.compare_eq_lt.mpr hlt]
      rfl
    · rw [heq, if_neg (Nat.lt_irrefl _), if_neg (Nat.lt_irrefl _), Nat.compare_eq_eq.mpr rfl]
      rfl
    · rw [if_pos hgt, Nat.compare_eq_gt.mpr hgt]
      rfl

theorem comparisonResult_swap (o : Ordering) : comparisonResult o.swap = -comparisonResult o := by
  cases o <;> rfl

theorem compareVersionArrays_swap (left right : List Nat) :
    compareVersionArrays right left = -compareVersionArrays left right := by
  have hleft : left.length ≤ left.length + right.length := Nat.le_add_right ..
  have hright : right.length ≤ left.length + right.length := Nat.le_add_left ..
  rw [compareVersionArrays_eq _ hright hleft, compareVersionArrays_eq _ hleft hright,
    ← comparisonResult_swap]
  exact congrArg comparisonResult Std.OrientedCmp.eq_swap

theorem compareVersionArrays_nil_right (left : List Nat) :
    compareVersionArrays left [] = if left.any (· ≠ 0) then -1 else 0 := by
  rw [compareVersionArrays_swap [], compareVersionArrays]
  split <;> rfl

theorem compareVersionArrays_cons_neg (l r : Nat) (left right : List Nat) :
    compareVersionArrays (l :: left) (r :: right) < 0 ↔
      r < l ∨ l = r ∧ compareVersionArrays left right < 0 := by
  rw [compareVersionArrays]
  split
  · rename_i h
    simp only [Int.reduceNeg, h, true_or, iff_true]
    decide
  · split
    · constructor
      · intro hpos
        cases hpos
      · rintro (h' | ⟨rfl, -⟩) <;> omega
    · have heq : l = r := by omega
      simp [heq]

/-! ## The order of the texts -/

theorem strcasecmp_digits {base : Nat} (hbase : base ≤ 16) (h : x.length = y.length)
    (hx : ∀ c ∈ x, isDigitOf base c) (hy : ∀ c ∈ y, isDigitOf base c) :
    strcasecmp x y = compare (valueOf base x) (valueOf base y) := by
  apply compareLex_eq_compare_valueOf _ h hx hy
  intro c d hc hd
  exact compare_toLower (isDigitOf_mono hbase hc) (isDigitOf_mono hbase hd)

theorem strcasecmp_swap (left right : CString) :
    strcasecmp left right = (strcasecmp right left).swap := by
  have horiented : Std.OrientedCmp fun c d : Char => compare c.toLower.toNat d.toLower.toNat :=
    ⟨fun {c d} => Std.OrientedCmp.eq_swap⟩
  show List.compareLex _ left right = (List.compareLex _ right left).swap
  exact Std.OrientedCmp.eq_swap

theorem strcasecmp_dotted_cons (xs ys : List (List Char)) (h : x.length = y.length)
    (hx : ∀ c ∈ x, c.isDigit) (hy : ∀ c ∈ y, c.isDigit) :
    strcasecmp (dotted (x :: xs)) (dotted (y :: ys)) =
      (compare (valueOf 10 x) (valueOf 10 y)).then (strcasecmp (dotted xs) (dotted ys)) := by
  have hten : ∀ z : List Char, (∀ c ∈ z, c.isDigit) → ∀ c ∈ z, isDigitOf 10 c :=
    fun z hz c hc => isDigitOf_ten (hz c hc)
  rw [← strcasecmp_digits (by decide) h (hten x hx) (hten y hy)]
  show List.compareLex _ ('.' :: (x ++ dotted xs)) ('.' :: (y ++ dotted ys)) = _
  rw [List.compareLex_cons_cons, compareLex_append _ _ _ h]
  rfl

theorem strcasecmp_self (s : CString) : strcasecmp s s = .eq := by
  have hrefl : Std.ReflCmp fun c d : Char => compare c.toLower.toNat d.toLower.toNat :=
    ⟨fun {c} => Std.ReflCmp.compare_self⟩
  show List.compareLex _ s s = .eq
  exact Std.ReflCmp.compare_self

theorem strcasecmp_append_left (front s t : CString) :
    strcasecmp (front ++ s) (front ++ t) = strcasecmp s t := by
  have happend : strcasecmp (front ++ s) (front ++ t) =
      (strcasecmp front front).then (strcasecmp s t) := compareLex_append _ _ _ rfl
  rw [happend, strcasecmp_self]
  rfl

theorem strcasecmp_dotted_digit (runs : List (List Char)) (rest : CString) :
    strcasecmp (dotted runs) ('0' :: rest) = .lt := by
  cases runs with
  | nil | cons => rfl

/-- If each run has as many digits as the run it is compared with, the texts are in the order of the
numbers.  Further runs may follow on the right. -/
theorem strcasecmp_dotted_eq_gt {xs ys : List (List Char)} (hx : ∀ r ∈ xs, ∀ c ∈ r, c.isDigit)
    (hy : ∀ r ∈ ys, ∀ c ∈ r, c.isDigit) (hlayout : xs.map List.length <+: ys.map List.length) :
    strcasecmp (dotted xs) (dotted ys) = .gt ↔
      compareVersionArrays (xs.map (valueOf 10)) (ys.map (valueOf 10)) < 0 := by
  induction xs generalizing ys with
  | nil =>
    have hnot : ¬ compareVersionArrays [] (ys.map (valueOf 10)) < 0 := by
      rw [compareVersionArrays]
      split <;> decide
    have hle : strcasecmp (dotted []) (dotted ys) ≠ .gt := by
      cases ys with
      | nil => decide
      | cons y ys => exact Ordering.noConfusion
    exact iff_of_false hle hnot
  | cons x xs ih =>
    cases ys with
    | nil => cases prefix_nil.mp hlayout
    | cons y ys =>
      rw [map_cons, map_cons, cons_prefix_cons] at hlayout
      have hrest := ih (fun r hr => hx r (mem_cons_of_mem x hr))
        (fun r hr => hy r (mem_cons_of_mem y hr)) hlayout.2
      rw [strcasecmp_dotted_cons xs ys hlayout.1 (hx x mem_cons_self) (hy y mem_cons_self),
        map_cons, map_cons, compareVersionArrays_cons_neg, Ordering.then_eq_gt,
        Nat.compare_eq_gt, Nat.compare_eq_eq, hrest]

theorem DottedVersion.strcasecmp_text (v w : DottedVersion) :
    strcasecmp v.text w.text = strcasecmp (dotted v.runs) (dotted w.runs) := by
  rw [v.dotted_runs, w.dotted_runs]
  exact (strcasecmp_append_left ['.'] v.text w.text).symm

/-- Two versions of aligned layouts are in the same order as texts and as numbers. -/
theorem DottedVersion.order_of_layout {v w : DottedVersion} (h : v.layout <+: w.layout) :
    strcasecmp v.text w.text ≠ .gt ↔
      0 ≤ compareVersionArrays (v.runs.map (valueOf 10)) (w.runs.map (valueOf 10)) := by
  rw [DottedVersion.strcasecmp_text, Ne, strcasecmp_dotted_eq_gt (fun r hr => (v.digits r hr).2)
    (fun r hr => (w.digits r hr).2) h]
  exact Int.not_lt

theorem HexVersion.order (v w : HexVersion) :
    strcasecmp v.text w.text ≠ .gt ↔
      0 ≤ compareVersionArrays [valueOf 16 v.digits] [valueOf 16 w.digits] := by
  have hmarker : strcasecmp v.text w.text = strcasecmp v.digits w.digits := by
    obtain hv | hv := v.isMarker <;> obtain hw | hw := w.isMarker <;>
      · rw [HexVersion.text, HexVersion.text, hv, hw]
        rfl
  rw [hmarker, strcasecmp_digits (Nat.le_refl 16) (v.length.trans w.length.symm) v.isHex w.isHex,
    Ne, Nat.compare_eq_gt, ← Int.not_lt, compareVersionArrays_cons_neg]
  simp [compareVersionArrays]

end ZilkerSdk.Descriptors

import ZilkerSdk.Descriptors.VersionOrder

/-!
# Version ranges

The lookup compares a version with the two ends of a range as texts.  `compareVersionStrings`
compares the numbers in them.  Here it is shown for which versions the two agree.

If the layout of the lower end is a prefix of the layout of the version, and that one a prefix of
the layout of the upper end, then the lookup is right.  For all other layouts there are versions for
which it is wrong.
-/

namespace ZilkerSdk.Descriptors

open Lib Types Util List

/-! ## Layouts that are not aligned -/

/-- A run of `n` digits, all of them zero but the last one. -/
def shortRun (n : Nat) (last : Char) : List Char := List.replicate (n - 1) '0' ++ [last]

variable {m n : Nat} {first layout second xs : List Nat} {v : DottedVersion}
  {lower version : Version}

theorem length_shortRun (hn : 0 < n) (last : Char) : (shortRun n last).length = n := by
  rw [shortRun, length_append, length_replicate, length_singleton]
  omega

theorem isDigit_of_mem_shortRun {last c : Char} (hlast : last.isDigit) (h : c ∈ shortRun n last) :
    c.isDigit := by
  rw [shortRun, mem_append, mem_singleton] at h
  obtain h | rfl := h
  · rw [eq_of_mem_replicate h]
    decide
  · exact hlast

theorem valueOf_shortRun (n : Nat) (last : Char) :
    valueOf 10 (shortRun n last) = (digitValue last).getD 0 := by
  have hzeros : ∀ k, valueOf 10 (replicate k '0') = 0 := by
    intro k
    induction k with
    | zero => rfl
    | succ k ih =>
      rw [replicate_succ, valueOf_cons, ih]
      show 0 * _ + 0 = 0
      rw [Nat.zero_mul]
  rw [shortRun, valueOf_append, hzeros, Nat.zero_mul, Nat.zero_add]
  simp [valueOf]

/-- A version that is zero, written with given numbers of digits. -/
def zeroRuns (layout : List Nat) : List (List Char) := layout.map (shortRun · '0')

theorem map_length_zeroRuns (h : ∀ n ∈ layout, 0 < n) :
    (zeroRuns layout).map List.length = layout := by
  rw [zeroRuns, map_map]
  conv_rhs => rw [← map_id layout]
  apply map_congr_left
  intro n hn
  exact length_shortRun (h n hn) '0'

theorem map_valueOf_zeroRuns (layout : List Nat) :
    (zeroRuns layout).map (valueOf 10) = List.replicate layout.length 0 := by
  rw [zeroRuns, map_map]
  apply eq_replicate_iff.mpr
  refine ⟨length_map _, ?_⟩
  intro value hvalue
  obtain ⟨n, -, rfl⟩ := mem_map.mp hvalue
  exact valueOf_shortRun n '0'

theorem compareVersionArrays_replicate_zero (left : List Nat) (n : Nat) :
    compareVersionArrays left (List.replicate n 0) = compareVersionArrays left [] := by
  induction left generalizing n with
  | nil =>
    simp [compareVersionArrays]
  | cons l left ih =>
    cases n with
    | zero => rfl
    | succ n =>
      rw [replicate_succ, compareVersionArrays, compareVersionArrays, ih]
      by_cases hl : l = 0
      · simp [hl]
      · rw [if_pos (Nat.pos_of_ne_zero hl), if_pos hl]

theorem compareVersionArrays_zeros (m n : Nat) :
    compareVersionArrays (List.replicate m 0) (List.replicate n 0) = 0 := by
  rw [compareVersionArrays_replicate_zero, compareVersionArrays_nil_right, any_replicate]
  simp

theorem strcasecmp_zeroRuns_lt (hm : 0 < m) (hlt : m < n) (second first : List Nat) :
    strcasecmp (dotted (zeroRuns (m :: second))) (dotted (zeroRuns (n :: first))) = .lt := by
  have hzero : ∀ k, 0 < k → shortRun k '0' = replicate k '0' := by
    intro k hk
    rw [shortRun, ← replicate_succ', Nat.sub_add_cancel hk]
  obtain ⟨d, rfl⟩ : ∃ d, n = m + (d + 1) := ⟨n - m - 1, by omega⟩
  show strcasecmp ('.' :: (shortRun m '0' ++ dotted (zeroRuns second)))
    ('.' :: (shortRun (m + (d + 1)) '0' ++ dotted (zeroRuns first))) = .lt
  rw [hzero m hm, hzero _ (by omega), replicate_add, append_assoc]
  exact (strcasecmp_append_left ('.' :: replicate m '0') _ _).trans (strcasecmp_dotted_digit _ _)

theorem strcasecmp_oneRun_lt (hn : 0 < n) (hlt : n < m) (ys xs : List (List Char)) :
    strcasecmp (dotted (shortRun m '1' :: ys)) (dotted (shortRun n '1' :: xs)) = .lt := by
  obtain ⟨k, rfl⟩ : ∃ k, n = k + 1 := ⟨n - 1, by omega⟩
  obtain ⟨d, rfl⟩ : ∃ d, m = k + (d + 1) + 1 := ⟨m - k - 2, by omega⟩
  show strcasecmp ('.' :: ((replicate (k + (d + 1)) '0' ++ ['1']) ++ dotted ys))
    ('.' :: ((replicate k '0' ++ ['1']) ++ dotted xs)) = .lt
  rw [replicate_add, append_assoc, append_assoc, append_assoc]
  exact strcasecmp_append_left ('.' :: replicate k '0') _ _

/-- Two versions of given layouts that are equal as numbers, the second one before the first as a
text. -/
structure Misplaced (first second : List Nat) (xs ys : List (List Char)) : Prop where
  layout_first : xs.map List.length = first
  layout_second : ys.map List.length = second
  run_first : ∀ r ∈ xs, ∃ n last, r = shortRun n last ∧ (last = '0' ∨ last = '1')
  run_second : ∀ r ∈ ys, ∃ n last, r = shortRun n last ∧ (last = '0' ∨ last = '1')
  text : strcasecmp (dotted ys) (dotted xs) = .lt
  number : compareVersionArrays (xs.map (valueOf 10)) (ys.map (valueOf 10)) = 0

theorem of_mem_zeroRuns {r : List Char} (h : r ∈ zeroRuns layout) :
    ∃ n last, r = shortRun n last ∧ (last = '0' ∨ last = '1') := by
  obtain ⟨n, -, rfl⟩ := mem_map.mp h
  exact ⟨n, '0', rfl, .inl rfl⟩

theorem misplaced_zeroRuns (hfirst : ∀ n ∈ first, 0 < n) (hsecond : ∀ n ∈ second, 0 < n)
    (htext : strcasecmp (dotted (zeroRuns second)) (dotted (zeroRuns first)) = .lt) :
    Misplaced first second (zeroRuns first) (zeroRuns second) where
  layout_first := map_length_zeroRuns hfirst
  layout_second := map_length_zeroRuns hsecond
  run_first _ := of_mem_zeroRuns
  run_second _ := of_mem_zeroRuns
  text := htext
  number := by
    rw [map_valueOf_zeroRuns, map_valueOf_zeroRuns]
    exact compareVersionArrays_zeros _ _

theorem Misplaced.cons {xs ys : List (List Char)} (hn : 0 < n) (h : Misplaced first second xs ys) :
    Misplaced (n :: first) (n :: second) (shortRun n '0' :: xs) (shortRun n '0' :: ys) where
  layout_first := by rw [map_cons, length_shortRun hn, h.layout_first]
  layout_second := by rw [map_cons, length_shortRun hn, h.layout_second]
  run_first := forall_mem_cons.mpr ⟨⟨n, '0', rfl, .inl rfl⟩, h.run_first⟩
  run_second := forall_mem_cons.mpr ⟨⟨n, '0', rfl, .inl rfl⟩, h.run_second⟩
  text := (strcasecmp_append_left ('.' :: shortRun n '0') _ _).trans h.text
  number := by
    rw [map_cons, map_cons, compareVersionArrays, if_neg (Nat.lt_irrefl _),
      if_neg (Nat.lt_irrefl _)]
    exact h.number

/-- If a layout is not a prefix of another one, some versions of these layouts are misplaced. -/
theorem exists_misplaced (hfirst : ∀ n ∈ first, 0 < n) (hsecond : ∀ n ∈ second, 0 < n)
    (h : ¬ first <+: second) : ∃ xs ys, Misplaced first second xs ys := by
  induction first generalizing second with
  | nil => exact absurd nil_prefix h
  | cons n first ih =>
    have hn : 0 < n := hfirst n mem_cons_self
    cases second with
    | nil => exact ⟨_, _, misplaced_zeroRuns hfirst hsecond rfl⟩
    | cons m second =>
      have hm : 0 < m := hsecond m mem_cons_self
      have hfirst' : ∀ k ∈ first, 0 < k := fun k hk => hfirst k (mem_cons_of_mem n hk)
      have hsecond' : ∀ k ∈ second, 0 < k := fun k hk => hsecond k (mem_cons_of_mem m hk)
      obtain hlt | rfl | hgt := Nat.lt_trichotomy m n
      · -- fewer digits: the end of the run comes before a further zero
        exact ⟨_, _, misplaced_zeroRuns hfirst hsecond (strcasecmp_zeroRuns_lt hm hlt second first)⟩
      · have hrest : ¬ first <+: second := fun hp => h (cons_prefix_cons.mpr ⟨rfl, hp⟩)
        obtain ⟨xs, ys, hmis⟩ := ih hfirst' hsecond' hrest
        exact ⟨_, _, hmis.cons hm⟩
      · -- more digits: a leading zero comes before the digit one
        refine ⟨shortRun n '1' :: zeroRuns first, shortRun m '1' :: zeroRuns second, ?_, ?_, ?_, ?_,
          strcasecmp_oneRun_lt hn hgt _ _, ?_⟩
        · rw [map_cons, length_shortRun hn, map_length_zeroRuns hfirst']
        · rw [map_cons, length_shortRun hm, map_length_zeroRuns hsecond']
        · exact forall_mem_cons.mpr ⟨⟨n, '1', rfl, .inr rfl⟩, fun _ => of_mem_zeroRuns⟩
        · exact forall_mem_cons.mpr ⟨⟨m, '1', rfl, .inr rfl⟩, fun _ => of_mem_zeroRuns⟩
        · rw [map_cons, map_cons, compareVersionArrays, valueOf_shortRun,
            valueOf_shortRun, if_neg (Nat.lt_irrefl _), if_neg (Nat.lt_irrefl _),
            map_valueOf_zeroRuns, map_valueOf_zeroRuns]
          exact compareVersionArrays_zeros _ _

/-! ## The lookup and the numbers -/

/-- The lookup accepts the version exactly if `compareVersionStrings` places it at or after the
lower end and at or before the upper end.  It is negative where the left version is greater. -/
def RangeIsNumeric (lower upper version : Version) : Prop :=
  ∃ atLower atUpper, compareVersionStrings version.text lower.text = some atLower ∧
    compareVersionStrings version.text upper.text = some atUpper ∧
    (versionInRange (some version.text) (some (.range (some lower.text) (some upper.text))) = true ↔
      atLower ≤ 0 ∧ 0 ≤ atUpper)

/-- Each run of an end has as many digits as the run of the version that it is compared with, and
fits the buffer.  The lower end may have fewer runs than the version, the upper end more. -/
def Aligned (lower upper version : Option (List Nat)) : Prop :=
  match lower, upper, version with
  | some lower, some upper, some version =>
    lower <+: version ∧ version <+: upper ∧ ∀ n ∈ upper, n < defaultBuffLen
  | none, none, none => True
  | _, _, _ => False

theorem versionInRange_range (version lower upper : CString) :
    versionInRange (some version) (some (.range (some lower) (some upper))) = true ↔
      strcasecmp lower version ≠ .gt ∧ strcasecmp version upper ≠ .gt := by
  rw [strcasecmp_swap lower version]
  simp only [versionInRange, stringCompare, if_true]
  cases strcasecmp version lower <;> cases strcasecmp version upper <;> decide

/-- What the lookup has to find, given the numbers. -/
theorem rangeIsNumeric_iff (lower upper version : Version) {ys zs : List Nat}
    (hlower : versionStringToInt lower.text = some xs)
    (hupper : versionStringToInt upper.text = some ys)
    (hversion : versionStringToInt version.text = some zs) :
    RangeIsNumeric lower upper version ↔
      (strcasecmp lower.text version.text ≠ .gt ∧ strcasecmp version.text upper.text ≠ .gt ↔
        0 ≤ compareVersionArrays xs zs ∧ 0 ≤ compareVersionArrays zs ys) := by
  have hswap : compareVersionArrays zs xs ≤ 0 ↔ 0 ≤ compareVersionArrays xs zs := by
    rw [compareVersionArrays_swap xs zs]
    omega
  unfold RangeIsNumeric
  rw [compareVersionStrings_eq_some hversion hlower, compareVersionStrings_eq_some hversion hupper,
    versionInRange_range]
  constructor
  · rintro ⟨_, _, ⟨⟩, ⟨⟩, h⟩
    rwa [hswap] at h
  · intro h
    exact ⟨_, _, rfl, rfl, by rwa [hswap]⟩

/-! ## Versions of a given layout -/

section

variable (v : DottedVersion)

theorem DottedVersion.layout_pos {n : Nat} (h : n ∈ v.layout) : 0 < n := by
  obtain ⟨run, hrun, rfl⟩ := mem_map.mp h
  exact length_pos_of_ne_nil (v.digits run hrun).1

/-- Other digits for a version. -/
def DottedVersion.withRuns (runs : List (List Char)) (hlayout : runs.map List.length = v.layout)
    (hruns : ∀ r ∈ runs, ∃ n last, r = shortRun n last ∧ last.isDigit) : DottedVersion where
  runs := runs
  nonempty := by
    rintro rfl
    exact v.nonempty (List.map_eq_nil_iff.mp hlayout.symm)
  atMost16 := by
    have hlength : runs.length = v.runs.length := by
      simpa [DottedVersion.layout] using congrArg List.length hlayout
    rw [hlength]
    exact v.atMost16
  digits r hr := by
    obtain ⟨n, last, rfl, hlast⟩ := hruns r hr
    refine ⟨?_, fun c hc => isDigit_of_mem_shortRun hlast hc⟩
    rw [shortRun]
    exact List.append_ne_nil_of_right_ne_nil _ (List.cons_ne_nil _ _)
  fitsInt r hr := by
    obtain ⟨n, last, rfl, hlast⟩ := hruns r hr
    have hbound := digitValue_lt (isDigitOf_ten hlast)
    rw [valueOf_shortRun]
    omega

theorem DottedVersion.layout_withRuns (runs : List (List Char))
    (hlayout : runs.map List.length = v.layout)
    (hruns : ∀ r ∈ runs, ∃ n last, r = shortRun n last ∧ last.isDigit) :
    (v.withRuns runs hlayout hruns).layout = v.layout := hlayout

theorem isDigit_of_run {r : List Char} (h : ∃ n last, r = shortRun n last ∧
    (last = '0' ∨ last = '1')) : ∃ n last, r = shortRun n last ∧ last.isDigit := by
  obtain ⟨n, last, rfl, rfl | rfl⟩ := h
  · exact ⟨n, _, rfl, rfl⟩
  · exact ⟨n, _, rfl, rfl⟩

/-- A version that is zero. -/
def DottedVersion.lowest : DottedVersion :=
  v.withRuns (zeroRuns v.layout) (map_length_zeroRuns fun _ => v.layout_pos) fun _ hr =>
    isDigit_of_run (of_mem_zeroRuns hr)

theorem DottedVersion.lowest_le (ys : List Nat) :
    0 ≤ compareVersionArrays (v.lowest.runs.map (valueOf 10)) ys := by
  show 0 ≤ compareVersionArrays ((zeroRuns v.layout).map (valueOf 10)) ys
  rw [map_valueOf_zeroRuns, compareVersionArrays_swap ys, compareVersionArrays_replicate_zero,
    compareVersionArrays_nil_right]
  split <;> decide

theorem DottedVersion.layout_ne_nil : v.layout ≠ [] := fun h => v.nonempty (map_eq_nil_iff.mp h)

/-- A version that begins with the number nine. -/
def DottedVersion.nine : DottedVersion :=
  v.withRuns (shortRun (v.layout.head v.layout_ne_nil) '9' :: zeroRuns v.layout.tail)
    (by
      have hhead := v.layout_pos (List.head_mem v.layout_ne_nil)
      rw [List.map_cons, length_shortRun hhead,
        map_length_zeroRuns fun _ hn => v.layout_pos (List.mem_of_mem_tail hn)]
      exact List.cons_head_tail v.layout_ne_nil)
    (List.forall_mem_cons.mpr ⟨⟨_, '9', rfl, rfl⟩, fun _ hr => isDigit_of_run (of_mem_zeroRuns hr)⟩)

theorem DottedVersion.le_nine {ys : List (List Char)} (hne : ys ≠ [])
    (hruns : ∀ r ∈ ys, ∃ n last, r = shortRun n last ∧ (last = '0' ∨ last = '1')) :
    0 ≤ compareVersionArrays (ys.map (valueOf 10)) (v.nine.runs.map (valueOf 10)) := by
  cases ys with
  | nil => exact absurd rfl hne
  | cons y ys =>
    have hsmall : valueOf 10 y < 9 := by
      obtain ⟨n, last, rfl, rfl | rfl⟩ := hruns y mem_cons_self
      · exact (valueOf_shortRun n '0').trans_lt (by decide)
      · exact (valueOf_shortRun n '1').trans_lt (by decide)
    show 0 ≤ compareVersionArrays (valueOf 10 y :: _) (valueOf 10 (shortRun _ '9') :: _)
    have hnine : ∀ n, valueOf 10 (shortRun n '9') = 9 := fun n => valueOf_shortRun n '9'
    rw [hnine, compareVersionArrays, if_neg (by omega), if_pos hsmall]
    decide

end

/-! ## When the lookup is right -/

theorem DottedVersion.numbers_of_fits (h : ∀ n ∈ v.layout, n < defaultBuffLen) :
    versionStringToInt v.text = some (v.runs.map (valueOf 10)) := by
  rw [v.versionStringToInt_text]
  exact if_pos h

theorem DottedVersion.fits_of_numbers (h : versionStringToInt v.text = some xs) :
    ∀ n ∈ v.layout, n < defaultBuffLen := by
  rw [v.versionStringToInt_text] at h
  split at h
  · assumption
  · cases h

theorem rangeIsNumeric_of_aligned (h : Aligned lower.layout upper.layout version.layout) :
    RangeIsNumeric lower upper version := by
  cases lower <;> cases upper <;> cases version <;> try exact h.elim
  case decimal.decimal.decimal lower upper version =>
    obtain ⟨hlower, hupper, hfits⟩ := h
    have hversion : ∀ n ∈ version.layout, n < defaultBuffLen :=
      fun n hn => hfits n (hupper.subset hn)
    have hlow : ∀ n ∈ lower.layout, n < defaultBuffLen := fun n hn => hversion n (hlower.subset hn)
    rw [rangeIsNumeric_iff (.decimal lower) (.decimal upper) (.decimal version)
      (lower.numbers_of_fits hlow) (upper.numbers_of_fits hfits) (version.numbers_of_fits hversion)]
    exact and_congr (DottedVersion.order_of_layout hlower) (DottedVersion.order_of_layout hupper)
  case hex.hex.hex lower upper version =>
    rw [rangeIsNumeric_iff (.hex lower) (.hex upper) (.hex version) lower.versionStringToInt_text
      upper.versionStringToInt_text version.versionStringToInt_text]
    exact and_congr (lower.order version) (version.order upper)

theorem RangeIsNumeric.fits {lower upper version : DottedVersion}
    (h : RangeIsNumeric (.decimal lower) (.decimal upper) (.decimal version)) :
    (∀ n ∈ lower.layout, n < defaultBuffLen) ∧ (∀ n ∈ upper.layout, n < defaultBuffLen) ∧
      ∀ n ∈ version.layout, n < defaultBuffLen := by
  obtain ⟨_, _, hlower, hupper, -⟩ := h
  simp only [compareVersionStrings, Option.bind_eq_bind, Option.bind_eq_some_iff] at hlower hupper
  obtain ⟨zs, hzs, xs, hxs, -⟩ := hlower
  obtain ⟨-, -, ys, hys, -⟩ := hupper
  exact ⟨DottedVersion.fits_of_numbers hxs, DottedVersion.fits_of_numbers hys,
    DottedVersion.fits_of_numbers hzs⟩

theorem RangeIsNumeric.accepts {lower upper version : DottedVersion}
    (h : RangeIsNumeric (.decimal lower) (.decimal upper) (.decimal version))
    (hlower : 0 ≤ compareVersionArrays (lower.runs.map (valueOf 10))
      (version.runs.map (valueOf 10)))
    (hupper : 0 ≤ compareVersionArrays (version.runs.map (valueOf 10))
      (upper.runs.map (valueOf 10))) : strcasecmp (dotted lower.runs) (dotted version.runs) ≠ .gt ∧
      strcasecmp (dotted version.runs) (dotted upper.runs) ≠ .gt := by
  obtain ⟨hfl, hfu, hfv⟩ := h.fits
  rw [rangeIsNumeric_iff (.decimal lower) (.decimal upper) (.decimal version)
    (lower.numbers_of_fits hfl) (upper.numbers_of_fits hfu) (version.numbers_of_fits hfv)] at h
  rw [← lower.strcasecmp_text, ← version.strcasecmp_text]
  exact h.mpr ⟨hlower, hupper⟩

section

variable {lower upper version : DottedVersion}
  (h : ∀ lower' upper' version' : DottedVersion, lower'.layout = lower.layout →
    upper'.layout = upper.layout → version'.layout = version.layout →
    RangeIsNumeric (.decimal lower') (.decimal upper') (.decimal version'))

include h

theorem layout_lower : lower.layout <+: version.layout := by
  by_contra hnot
  obtain ⟨xs, ys, hmis⟩ :=
    exists_misplaced (fun _ => lower.layout_pos) (fun _ => version.layout_pos) hnot
  have hne : ys ≠ [] := by
    rintro rfl
    exact version.layout_ne_nil hmis.layout_second.symm
  have hnine := upper.le_nine hne hmis.run_second
  have haccepts := (h
    (lower.withRuns xs hmis.layout_first fun r hr => isDigit_of_run (hmis.run_first r hr))
    upper.nine
    (version.withRuns ys hmis.layout_second fun r hr => isDigit_of_run (hmis.run_second r hr))
    hmis.layout_first (DottedVersion.layout_withRuns ..) hmis.layout_second).accepts
    (Int.le_of_eq hmis.number.symm) hnine
  -- the lower end comes behind the version as a text
  apply haccepts.1
  rw [strcasecmp_swap]
  exact congrArg Ordering.swap hmis.text

theorem layout_upper : version.layout <+: upper.layout := by
  by_contra hnot
  obtain ⟨xs, ys, hmis⟩ :=
    exists_misplaced (fun _ => version.layout_pos) (fun _ => upper.layout_pos) hnot
  have haccepts := (h lower.lowest
    (upper.withRuns ys hmis.layout_second fun r hr => isDigit_of_run (hmis.run_second r hr))
    (version.withRuns xs hmis.layout_first fun r hr => isDigit_of_run (hmis.run_first r hr))
    (DottedVersion.layout_withRuns ..) hmis.layout_second hmis.layout_first).accepts
    (lower.lowest_le _) (Int.le_of_eq hmis.number.symm)
  apply haccepts.2
  rw [strcasecmp_swap]
  exact congrArg Ordering.swap hmis.text

end

/-- For versions in one notation, the lookup compares the numbers for all versions of the given
layouts exactly if the layouts are aligned. -/
theorem range_numeric_iff (lower upper version : Version) (hlower : lower.SameNotation version)
    (hupper : upper.SameNotation version) :
    (∀ lower' upper' version' : Version, lower'.layout = lower.layout →
      upper'.layout = upper.layout → version'.layout = version.layout →
      RangeIsNumeric lower' upper' version') ↔
      Aligned lower.layout upper.layout version.layout := by
  constructor
  · intro h
    cases version with
    | hex version =>
      cases lower with
      | decimal lower => cases hlower
      | hex lower =>
        cases upper with
        | decimal upper => cases hupper
        | hex upper => trivial
    | decimal version =>
      cases lower with
      | hex lower => cases hlower
      | decimal lower =>
        cases upper with
        | hex upper => cases hupper
        | decimal upper =>
          -- Zigbee versions are aligned; the rest is about decimal ones
          have hdecimal : ∀ lower' upper' version' : DottedVersion, lower'.layout = lower.layout →
              upper'.layout = upper.layout → version'.layout = version.layout →
              RangeIsNumeric (.decimal lower') (.decimal upper') (.decimal version') :=
            fun l u v hl hu hv => h (.decimal l) (.decimal u) (.decimal v) (congrArg some hl)
              (congrArg some hu) (congrArg some hv)
          exact ⟨layout_lower hdecimal, layout_upper hdecimal,
            (hdecimal lower upper version rfl rfl rfl).fits.2.1⟩
  · intro haligned lower' upper' version' hl hu hv
    apply rangeIsNumeric_of_aligned
    rwa [hl, hu, hv]

theorem range_numeric_iff_twoDigits :
    RangeIsNumeric
      (.decimal ⟨["09".toList], by decide, by decide, by simp, by decide +kernel⟩)
      (.decimal ⟨["11".toList, "4".toList], by decide, by decide, by simp, by decide +kernel⟩)
      (.decimal ⟨["10".toList], by decide, by decide, by simp, by decide +kernel⟩) := by
  apply (range_numeric_iff _ _ _ _ _).mpr _ _ _ _ rfl rfl rfl
  · rfl
  · rfl
  · exact ⟨by decide, by decide, by decide⟩

/-- The lookup refuses version 10 for the range from 9 to 11. -/
theorem ten_not_between_nine_and_eleven :
    versionInRange (some "10".toList) (some (.range (some "9".toList) (some "11".toList))) = false ∧
      compareVersionStrings "10".toList "9".toList = some (-1) ∧
      compareVersionStrings "10".toList "11".toList = some 1 := by
  decide

end ZilkerSdk.Descriptors

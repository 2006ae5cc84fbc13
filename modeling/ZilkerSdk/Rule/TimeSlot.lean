import ZilkerSdk.Lib.Xml
import ZilkerSdk.Util.StringUtils

/-!
# Times in rules

Model of `icrule_time_t` and of `icrule_parse_time_slot` in `libs/libicrule/src/icrule.c`: the days
of the week and either a time of day or sunrise or sunset.
-/

namespace ZilkerSdk.Rule

open Lib Types Util List

/-- `icrule_time_t`.  The time is a union: the seconds since midnight, or `icrule_time_sun_t`. -/
structure RuleTime where
  /-- One bit for each day. -/
  dayOfWeek : BitVec 8
  useExactTime : Bool
  time : Nat
deriving DecidableEq

def suntimeSunrise : Nat := 1

def suntimeSunset : Nat := 2

/-- What `memset` leaves. -/
def RuleTime.zero : RuleTime := ⟨0, false, 0⟩

/-- `strtok_r` until it finds no more. -/
def tokens (separator : Char) (text : CString) : List CString :=
  (text.splitOn separator).filter (· ≠ [])

/-- The names of the days and their bits. -/
def days : List (String × BitVec 8) :=
  [("MON", 1 <<< 1), ("TUE", 1 <<< 2), ("WED", 1 <<< 3), ("THU", 1 <<< 4), ("FRI", 1 <<< 5),
    ("SAT", 1 <<< 6), ("SUN", 1 <<< 0)]

/-- `parse_day_of_week`.  Names that are not known are skipped. -/
def parseDayOfWeek (names : CString) : BitVec 8 :=
  (tokens ',' names).foldl (fun mask token =>
    match days.find? fun day => equalIgnoringCase token day.1.toList with
    | some day => mask ||| day.2
    | none => mask) 0

/-- `strtoul` in base 10: a number that is too large is `ULONG_MAX`, a sign negates. -/
def strtoul (text : CString) : Nat :=
  let found := scanInteger 10 text
  if found.magnitude ≥ 2 ^ 64 then 2 ^ 64 - 1
  else if found.negative then (2 ^ 64 - found.magnitude) % 2 ^ 64
  else found.magnitude

/-- `parse_exact_time`: hours and minutes in seconds.  A text without a colon is midnight. -/
def parseExactTime (text : CString) : Option Nat :=
  if ':' ∈ text then
    let hours := strtoul (text.takeWhile (· ≠ ':'))
    let minutes := strtoul ((text.dropWhile (· ≠ ':')).drop 1)
    if hours = 2 ^ 64 - 1 ∨ minutes = 2 ^ 64 - 1 then none
    else
      let seconds := (hours * 3600 % 2 ^ 32 + minutes * 60 % 2 ^ 32) % 2 ^ 32
      -- the largest number stands for an error
      if seconds = 2 ^ 32 - 1 then none else some seconds
  else some 0

/-- The text of an `exactTime` element: the days, a blank, and the time. -/
def readExactTime (text : CString) : Option RuleTime :=
  if ' ' ∈ text then
    let mask := parseDayOfWeek (text.takeWhile (· ≠ ' '))
    let time := (text.dropWhile (· ≠ ' ')).drop 1
    if mask = 0 then none
    else if equalIgnoringCase time "sunrise".toList then some ⟨mask, false, suntimeSunrise⟩
    else if equalIgnoringCase time "sunset".toList then some ⟨mask, false, suntimeSunset⟩
    else (parseExactTime time).map fun seconds => ⟨mask, true, seconds⟩
  else none

/-- `icrule_parse_time_slot`.  The last `exactTime` element counts; without one the time is left as
it was. -/
def icruleParseTimeSlot (parent : XmlNode) (time : Option RuleTime) : Option (Option RuleTime) :=
  parent.childElements.foldlM (fun time node =>
    if node.name = "exactTime".toList then (readExactTime node.content).map some
    else some time) time

/-! ## Texts of the right form -/

/-- The day is among the names. -/
def Listed (names : CString) (day : String × BitVec 8) : Prop :=
  ∃ name ∈ names.splitOn ',', equalIgnoringCase name day.1.toList

/-- A time of the sun or of the day, and what is stored for it. -/
inductive IsTime : CString → Bool → Nat → Prop where
  | sunrise {text : CString} (h : equalIgnoringCase text "sunrise".toList) :
    IsTime text false suntimeSunrise
  | sunset {text : CString} (h : equalIgnoringCase text "sunset".toList) :
    IsTime text false suntimeSunset
  | exact {hours minutes : CString} (hhours : IsNumeral hours) (hminutes : IsNumeral minutes)
      (h23 : valueOf 10 hours ≤ 23) (h59 : valueOf 10 minutes ≤ 59) :
    IsTime (hours ++ ':' :: minutes) true (valueOf 10 hours * 3600 + valueOf 10 minutes * 60)

/-- The text is names of days, a blank and a time, and `slot` is what they stand for. -/
def StandsFor (text : CString) (slot : RuleTime) : Prop :=
  ∃ names time, text = names ++ ' ' :: time ∧ ' ' ∉ names ∧ (∃ day ∈ days, Listed names day) ∧
    (∀ i, slot.dayOfWeek.getLsbD i ↔ ∃ day ∈ days, Listed names day ∧ day.2.getLsbD i) ∧
    IsTime time slot.useExactTime slot.time

/-- `strtoul` answers `ULONG_MAX` for the hours or for the minutes. -/
def IsTooLarge (time : CString) : Prop :=
  ':' ∈ time ∧ (strtoul (time.takeWhile (· ≠ ':')) = 2 ^ 64 - 1 ∨
    strtoul ((time.dropWhile (· ≠ ':')).drop 1) = 2 ^ 64 - 1)

/-- Behind a blank that follows days there is a time, or a number that is too large. -/
def HasTime (text : CString) : Prop :=
  ' ' ∈ text → (∃ day ∈ days, Listed (text.takeWhile (· ≠ ' ')) day) →
    let time := (text.dropWhile (· ≠ ' ')).drop 1
    (∃ useExactTime value, IsTime time useExactTime value) ∨ IsTooLarge time

/-- A text is cut at the first place of a character. -/
theorem cut_at {c : Char} {left right : CString} (h : c ∉ left) :
    (left ++ c :: right).takeWhile (· ≠ c) = left ∧
      ((left ++ c :: right).dropWhile (· ≠ c)).drop 1 = right := by
  have hleft : ∀ d ∈ left, decide (d ≠ c) = true := by
    intro d hd
    exact decide_eq_true fun heq => h (heq ▸ hd)
  rw [takeWhile_append_of_pos hleft, dropWhile_append_of_pos hleft]
  simp

/-! ## Days -/

/-- No two days have the same name. -/
theorem find_day_iff {name : CString} {day : String × BitVec 8} :
    (days.find? fun day => equalIgnoringCase name day.1.toList) = some day ↔
      day ∈ days ∧ equalIgnoringCase name day.1.toList := by
  have hunique : ∀ day ∈ days, ∀ other ∈ days,
      day.1.toList.map Char.toLower = other.1.toList.map Char.toLower → day = other := by
    decide +kernel
  constructor
  · intro h
    have hname := find?_some h
    exact ⟨mem_of_find?_eq_some h, hname⟩
  · rintro ⟨hday, hname⟩
    cases hfind : days.find? fun day => equalIgnoringCase name day.1.toList with
    | none => exact absurd hname (find?_eq_none.mp hfind day hday)
    | some other =>
      have hother := find?_some hfind
      simp only [equalIgnoringCase, decide_eq_true_eq] at hname hother
      rw [hunique other (mem_of_find?_eq_some hfind) day hday (hother.symm.trans hname)]

/-- The mask has the bits of the days that are listed. -/
theorem getLsbD_parseDayOfWeek (names : CString) (i : Nat) :
    (parseDayOfWeek names).getLsbD i ↔ ∃ day ∈ days, Listed names day ∧ day.2.getLsbD i := by
  have hfold : ∀ (names : List CString) (mask : BitVec 8), (names.foldl (fun mask token =>
      match days.find? fun day => equalIgnoringCase token day.1.toList with
      | some day => mask ||| day.2
      | none => mask) mask).getLsbD i = true ↔ mask.getLsbD i ∨ ∃ name ∈ names, ∃ day,
        (days.find? fun day => equalIgnoringCase name day.1.toList) = some day ∧
          day.2.getLsbD i := by
    intro names
    induction names with
    | nil => simp
    | cons name names ih =>
      intro mask
      refine (ih _).trans ?_
      rcases hfind : days.find? fun day => equalIgnoringCase name day.1.toList with _ | ⟨_, bits⟩
      · simp [hfind]
      · simp [hfind, or_assoc]
  -- a name that is skipped because it is empty is no day
  have hempty : ∀ day ∈ days, equalIgnoringCase [] day.1.toList = false := by decide +kernel
  refine (hfold _ _).trans ?_
  simp only [find_day_iff, tokens, mem_filter, Listed]
  constructor
  · rintro (hzero | ⟨name, ⟨hname, -⟩, day, ⟨hday, hsame⟩, hbit⟩)
    · simp at hzero
    · exact ⟨day, hday, ⟨name, hname, hsame⟩, hbit⟩
  · rintro ⟨day, hday, ⟨name, hname, hsame⟩, hbit⟩
    refine .inr ⟨name, ⟨hname, decide_eq_true ?_⟩, day, ⟨hday, hsame⟩, hbit⟩
    rintro rfl
    simp [hempty day hday] at hsame

theorem parseDayOfWeek_ne_zero_iff {names : CString} :
    parseDayOfWeek names ≠ 0 ↔ ∃ day ∈ days, Listed names day := by
  have hbits := getLsbD_parseDayOfWeek names
  constructor
  · intro hne
    by_contra hnone
    apply hne
    apply BitVec.eq_of_getLsbD_eq
    grind
  · rintro ⟨day, hday, hlisted⟩ hzero
    have hbit : ∀ day ∈ days, ∃ i < 8, day.2.getLsbD i := by decide
    obtain ⟨i, -, hi⟩ := hbit day hday
    have hset := (hbits i).mpr ⟨day, hday, hlisted, hi⟩
    rw [hzero] at hset
    simp at hset

/-! ## Times -/

theorem strtoul_numeral {text : CString} (h : IsNumeral text) (hlt : valueOf 10 text < 2 ^ 64) :
    strtoul text = valueOf 10 text := by
  have hsign := takeSign_digits h.2 false
  rw [if_neg Bool.false_ne_true] at hsign
  have hall : ∀ c ∈ text, isDigitOf 10 c := fun c hc => isDigitOf_ten (h.2 c hc)
  have hscan : scanInteger 10 text = ⟨false, valueOf 10 text, []⟩ := by
    simp [scanInteger, hsign, chooseBase, takeWhile_eq_self_iff.mpr hall,
      dropWhile_eq_nil_iff.mpr hall, h.1]
  rw [strtoul, hscan]
  exact if_neg (Nat.not_le.mpr hlt)

/-- No number of seconds is taken for an error. -/
theorem parseExactTime_eq_none_iff {time : CString} :
    parseExactTime time = none ↔ IsTooLarge time := by
  have heven : ∀ hours minutes : Nat,
      (hours * 3600 % 2 ^ 32 + minutes * 60 % 2 ^ 32) % 2 ^ 32 ≠ 2 ^ 32 - 1 := by
    omega
  simp only [parseExactTime, IsTooLarge, if_neg (heven _ _)]
  split_ifs with hcolon hlarge
  · exact iff_of_true rfl ⟨hcolon, hlarge⟩
  · exact iff_of_false nofun fun h => hlarge h.2
  · exact iff_of_false nofun fun h => hcolon h.1

/-! ## Time slots -/

theorem HasTime.standsFor {text : CString} {slot : RuleTime} (h : HasTime text)
    (hread : readExactTime text = some slot) : StandsFor text slot := by
  obtain ⟨hblank, hread⟩ := Option.ite_none_right_eq_some.mp hread
  obtain ⟨names, time, rfl, hnames⟩ := eq_append_cons_of_mem hblank
  have htime := h hblank
  simp only [cut_at hnames] at hread htime
  split at hread
  · cases hread
  rename_i hmask
  have hdays := parseDayOfWeek_ne_zero_iff.mp hmask
  have hbits := getLsbD_parseDayOfWeek names
  split at hread
  · rename_i hrise
    cases hread
    exact ⟨names, time, rfl, hnames, hdays, hbits, .sunrise hrise⟩
  split at hread
  · rename_i hset
    cases hread
    exact ⟨names, time, rfl, hnames, hdays, hbits, .sunset hset⟩
  rename_i hrise hset
  obtain ⟨seconds, hseconds, rfl⟩ := Option.map_eq_some_iff.mp hread
  refine ⟨names, time, rfl, hnames, hdays, hbits, ?_⟩
  -- a number that is too large is refused, so the text has a time
  obtain ⟨exact, value, htime⟩ | hlarge := htime hdays
  · cases htime with
    | sunrise hrise' => exact absurd hrise' hrise
    | sunset hset' => exact absurd hset' hset
    | @exact hours minutes hhours hminutes h23 h59 =>
      have hclock : parseExactTime (hours ++ ':' :: minutes) =
          some (valueOf 10 hours * 3600 + valueOf 10 minutes * 60) := by
        have hcolon : ':' ∉ hours := fun hmem => by cases hhours.2 _ hmem
        have hmem : ':' ∈ hours ++ ':' :: minutes := by simp
        simp only [parseExactTime, if_pos hmem, cut_at hcolon, strtoul_numeral hhours (by omega),
          strtoul_numeral hminutes (by omega)]
        grind
      rw [hclock, Option.some.injEq] at hseconds
      rw [← hseconds]
      exact .exact hhours hminutes h23 h59
  · rw [parseExactTime_eq_none_iff.mpr hlarge] at hseconds
    cases hseconds

/-- A text that has no time is accepted. -/
theorem readExactTime_of_not_hasTime {text : CString} (h : ¬ HasTime text) :
    ∃ slot, readExactTime text = some slot := by
  simp only [HasTime, Classical.not_imp, not_or] at h
  obtain ⟨hblank, hdays, htime, hlarge⟩ := h
  obtain ⟨seconds, hseconds⟩ :=
    Option.ne_none_iff_exists'.mp (mt parseExactTime_eq_none_iff.mp hlarge)
  simp only [readExactTime, if_pos hblank, if_neg (parseDayOfWeek_ne_zero_iff.mpr hdays)]
  rw [if_neg fun hrise => htime ⟨_, _, .sunrise hrise⟩,
    if_neg fun hset => htime ⟨_, _, .sunset hset⟩, hseconds]
  exact ⟨_, rfl⟩

theorem StandsFor.hasTime {text : CString} {slot : RuleTime} (h : StandsFor text slot) :
    HasTime text := by
  obtain ⟨names, time, rfl, hnames, -, -, htime⟩ := h
  intro _ _
  rw [(cut_at hnames).2]
  exact .inl ⟨_, _, htime⟩

/-- Every `exactTime` element of an accepted node was read, and the last one gives the time. -/
theorem readExactTime_of_parsed {parent node : XmlNode} {init rest : List XmlNode}
    {before after : Option RuleTime} (hparent : parent.childElements = init ++ node :: rest)
    (hname : node.name = "exactTime".toList) (h : icruleParseTimeSlot parent before = some after) :
    ∃ slot, readExactTime node.content = some slot ∧
      ((∀ other ∈ rest, other.name ≠ "exactTime".toList) → after = some slot) := by
  rw [icruleParseTimeSlot, hparent, foldlM_append] at h
  obtain ⟨time, -, htail⟩ := Option.bind_eq_some_iff.mp h
  rw [foldlM_cons, if_pos hname] at htail
  obtain ⟨_, hnode, hrest⟩ := Option.bind_eq_some_iff.mp htail
  obtain ⟨slot, hread, rfl⟩ := Option.map_eq_some_iff.mp hnode
  refine ⟨slot, hread, fun hlast => ?_⟩
  -- the elements that follow leave the time as it is
  clear hparent h htail
  induction rest with
  | nil =>
    cases hrest
    rfl
  | cons other rest ih =>
    rw [foldlM_cons, if_neg (hlast other mem_cons_self)] at hrest
    exact ih hrest fun other hmem => hlast other (mem_cons_of_mem _ hmem)

/-- Exactly the texts that are refused or have a time behind the days are read as what they stand
for, whatever stands beside their element. -/
theorem timeSlot_standsFor_iff (text : CString) :
    (∀ (parent node : XmlNode) (init rest : List XmlNode) (before after : Option RuleTime),
      parent.childElements = init ++ node :: rest →
      node.name = "exactTime".toList → node.content = text →
      icruleParseTimeSlot parent before = some after →
      ∃ slot, StandsFor text slot ∧
        ((∀ other ∈ rest, other.name ≠ "exactTime".toList) → after = some slot)) ↔
      HasTime text := by
  constructor
  · intro h
    by_contra hno
    obtain ⟨slot, hread⟩ := readExactTime_of_not_hasTime hno
    let node := XmlNode.element "exactTime".toList [] [.text text]
    have hcontent : node.content = text := append_nil _
    have hslot : icruleParseTimeSlot (.element [] [] [node]) none = some (some slot) := by
      show ((readExactTime node.content).map some).bind some = _
      rw [hcontent, hread]
      rfl
    obtain ⟨_, hstands, -⟩ := h _ node [] [] none _ rfl rfl hcontent hslot
    exact hno hstands.hasTime
  · intro h parent node init rest before after hparent hname hcontent hafter
    obtain ⟨slot, hread, hlast⟩ := readExactTime_of_parsed hparent hname hafter
    exact ⟨slot, h.standsFor (hcontent ▸ hread), hlast⟩

/-- Noon is read as midnight, and a time is accepted that no day has. -/
theorem malformed_times_accepted :
    readExactTime "MON noon".toList = some ⟨2, true, 0⟩ ∧
      readExactTime "MON 25:61".toList = some ⟨2, true, 93660⟩ ∧
      ∀ slot, ¬ StandsFor "MON noon".toList slot := by
  refine ⟨by decide +kernel, by decide +kernel, ?_⟩
  rintro slot ⟨names, time, heq, hnames, -, -, htime⟩
  have hcut := (@cut_at ' ' names time hnames).2
  rw [← heq] at hcut
  obtain rfl : "noon".toList = time := hcut
  generalize htext : "noon".toList = text at htime
  generalize slot.useExactTime = exact, slot.time = value at htime
  cases htime with
  | sunrise h | sunset h =>
    rw [← htext] at h
    revert h
    decide +kernel
  | exact =>
    have hcolon : ':' ∈ "noon".toList := by simp [htext]
    revert hcolon
    decide +kernel

end ZilkerSdk.Rule

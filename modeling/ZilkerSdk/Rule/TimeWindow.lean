import Mathlib.Algebra.Group.Fin.Basic
import Mathlib.Data.Nat.Bitwise
import ZilkerSdk.Lib.LogicalExpr
import ZilkerSdk.Rule.TimeSlot

/-!
# The time windows of constraints

Model of `parse_time_constraint` in `libs/libicrule/src/icrule_constraint.c` and of the condition
that `internal_sheens_constraints2javascript` writes for a time constraint.

The condition compares the day of the clock with the days of the start, and the time with both ends.
If the end is before the start, the window goes on after midnight.  But the day is still compared
with the day on which the window starts.
-/

namespace ZilkerSdk.Rule

open Lib Types

/-! ## The constraint and its condition -/

/-- `icrule_constraint_time_t` -/
structure TimeConstraint where
  start : RuleTime
  stop : RuleTime
deriving DecidableEq

def parseTimeConstraint (parent : XmlNode) : Option TimeConstraint := do
  let read ← parent.childElements.foldlM (fun (read : RuleTime × RuleTime) node =>
    if node.name = "start".toList then
      (icruleParseTimeSlot node (some read.1)).map fun time => (time.getD read.1, read.2)
    else if node.name = "end".toList then
      (icruleParseTimeSlot node (some read.2)).map fun time => (read.1, time.getD read.2)
    else some read) (RuleTime.zero, RuleTime.zero)
  -- both are required
  if read.1.dayOfWeek = 0 ∨ read.2.dayOfWeek = 0 then none else some ⟨read.1, read.2⟩

/-- What `nowSeconds` is compared with. -/
inductive ClockBound where
  | seconds (n : Nat)
  | sunrise
  | sunset

/-- The text `((days & daysOfWeek) != 0) && ((nowSeconds >= from) op (nowSeconds <= until))`. -/
structure TimeCheck where
  days : Nat
  lower : ClockBound
  op : LogicalOp
  upper : ClockBound

/-- The condition for a time constraint.  For a start that is neither a time nor a time of the sun
the text is not complete. -/
def timeCheck (value : TimeConstraint) : Option TimeCheck :=
  let days := value.start.dayOfWeek.toNat
  if value.start.useExactTime then
    let op := if value.stop.time < value.start.time then .or else .and
    some ⟨days, .seconds value.start.time, op, .seconds value.stop.time⟩
  else if value.start.time = suntimeSunrise then some ⟨days, .sunrise, .and, .sunset⟩
  else if value.start.time = suntimeSunset then some ⟨days, .sunset, .or, .sunrise⟩
  else none

/-- What the script reads of the clock, and the times of the sun it is given. -/
structure Clock where
  getDay : Fin 7
  getHours : Fin 24
  getMinutes : Fin 60
  sunrise : Nat
  sunset : Nat

def Clock.nowSeconds (clock : Clock) : Nat := clock.getHours * 60 * 60 + clock.getMinutes * 60

def Clock.bound (clock : Clock) : ClockBound → Nat
  | .seconds n => n
  | .sunrise => clock.sunrise
  | .sunset => clock.sunset

def TimeCheck.evaluate (check : TimeCheck) (clock : Clock) : Bool :=
  let lower : Bool := clock.nowSeconds ≥ clock.bound check.lower
  let upper : Bool := clock.nowSeconds ≤ clock.bound check.upper
  check.days &&& (1 <<< clock.getDay.val) ≠ 0 &&
    match check.op with
    | .and => lower && upper
    | .or => lower || upper

/-- Is the condition for a time constraint true? -/
def timeAllowed (value : TimeConstraint) (clock : Clock) : Option Bool :=
  (timeCheck value).map fun check => check.evaluate clock

/-! ## Windows -/

/-- A constraint between two minutes of the day.  The days of its end are not looked at. -/
structure Exact where
  days : BitVec 8
  start : Fin 1440
  stop : Fin 1440
  stopDays : BitVec 8

def Exact.constraint (w : Exact) : TimeConstraint :=
  ⟨⟨w.days, true, w.start * 60⟩, ⟨w.stopDays, true, w.stop * 60⟩⟩

/-- The minute of the day. -/
def Clock.minute (clock : Clock) : Nat := clock.getHours * 60 + clock.getMinutes

/-- Does a window start on this day? -/
def Exact.On (w : Exact) (day : Fin 7) : Prop := w.days.getLsbD day = true

/-- A window that starts on some day goes on to the next time of its end, on the same day or on the
day after it.  After the last day of the week comes the first. -/
def Exact.InWindow (w : Exact) (clock : Clock) : Prop :=
  ∃ day, w.On day ∧
    if w.start ≤ w.stop then
      clock.getDay = day ∧ w.start.val ≤ clock.minute ∧ clock.minute ≤ w.stop.val
    else (clock.getDay = day ∧ w.start.val ≤ clock.minute) ∨
      (clock.getDay = day + 1 ∧ clock.minute ≤ w.stop.val)

theorem days_and_shift (w : Exact) (day : Fin 7) :
    w.days.toNat &&& (1 <<< day.val) ≠ 0 ↔ w.On day := by
  rw [Nat.one_shiftLeft, Nat.and_two_pow, Exact.On, BitVec.getLsbD]
  cases w.days.toNat.testBit day.val with
  | true | false => simp

theorem seconds_le_nowSeconds (minute : Nat) (clock : Clock) :
    minute * 60 ≤ clock.nowSeconds ↔ minute ≤ clock.minute := by
  unfold Clock.nowSeconds Clock.minute
  omega

theorem nowSeconds_le_seconds (minute : Nat) (clock : Clock) :
    clock.nowSeconds ≤ minute * 60 ↔ clock.minute ≤ minute := by
  unfold Clock.nowSeconds Clock.minute
  omega

variable {w : Exact}

/-- After midnight the condition asks for the day that it is, not for the day before. -/
theorem timeAllowed_iff (clock : Clock) : timeAllowed w.constraint clock = some true ↔
    w.On clock.getDay ∧
      if w.start ≤ w.stop then w.start.val ≤ clock.minute ∧ clock.minute ≤ w.stop.val
      else w.start.val ≤ clock.minute ∨ clock.minute ≤ w.stop.val := by
  have hop : (w.stop : Nat) * 60 < w.start * 60 ↔ ¬ w.start ≤ w.stop := by
    omega
  by_cases h : w.start ≤ w.stop <;>
    simp [timeAllowed, timeCheck, Exact.constraint, hop, h, TimeCheck.evaluate, Clock.bound,
      seconds_le_nowSeconds, nowSeconds_le_seconds, ← days_and_shift]

/-- If each day is like the day before it, all are alike. -/
theorem on_all_or_none (h : ∀ day, w.On (day + 1) ↔ w.On day) :
    (∀ day, w.On day) ∨ ∀ day, ¬ w.On day := by
  have hzero : ∀ day, w.On day ↔ w.On 0 := by
    intro day
    induction day using Fin.induction with
    | zero => rfl
    | succ day ih => rw [← ih, ← h day.castSucc, Fin.coeSucc_eq_succ]
  by_cases hfirst : w.On 0
  · exact .inl fun day => (hzero day).mpr hfirst
  · exact .inr fun day hday => hfirst ((hzero day).mp hday)

/-- The condition is true exactly in the windows if no window goes past midnight, or if there is one
on every day. -/
theorem time_window_iff (w : Exact) :
    (∀ clock, timeAllowed w.constraint clock = some true ↔ w.InWindow clock) ↔
      w.start ≤ w.stop ∨ (∀ day, w.On day) ∨ ∀ day, ¬ w.On day := by
  by_cases h : w.start ≤ w.stop
  · simp [timeAllowed_iff, Exact.InWindow, h]
  simp only [timeAllowed_iff, Exact.InWindow, h, if_false, false_or]
  constructor
  · intro hall
    apply on_all_or_none
    intro day
    -- at midnight the window of the day before is still open, and no other
    have hmidnight := hall ⟨day + 1, 0, 0, 0, 0⟩
    have hpos : ¬ w.start.val ≤ 0 := by
      omega
    simpa [Clock.minute, hpos, eq_comm] using hmidnight
  · rintro (hevery | hnone) clock
    · constructor
      · rintro ⟨-, hstart | hstop⟩
        · exact ⟨clock.getDay, hevery _, .inl ⟨rfl, hstart⟩⟩
        · exact ⟨clock.getDay - 1, hevery _, .inr ⟨by simp, hstop⟩⟩
      · rintro ⟨day, -, ⟨-, hstart⟩ | ⟨-, hstop⟩⟩
        · exact ⟨hevery _, .inl hstart⟩
        · exact ⟨hevery _, .inr hstop⟩
    · constructor
      · rintro ⟨hon, -⟩
        exact absurd hon (hnone _)
      · rintro ⟨day, hon, -⟩
        exact absurd hon (hnone day)

/-- A constraint from ten in the evening to six in the morning, on Mondays.  At two o'clock on
Tuesday it is not met, at two o'clock on Monday it is. -/
theorem night_after_rejected :
    let slot (name text : String) : XmlNode :=
      .element name.toList [] [.leaf "exactTime".toList text.toList]
    let element : XmlNode :=
      .element "timeConstraint".toList [] [slot "start" "MON 22:00", slot "end" "MON 06:00"]
    let w : Exact := ⟨2, 1320, 360, 2⟩
    parseTimeConstraint element = some w.constraint ∧
      timeAllowed w.constraint ⟨2, 2, 0, 0, 0⟩ = some false ∧ w.InWindow ⟨2, 2, 0, 0, 0⟩ ∧
      timeAllowed w.constraint ⟨1, 2, 0, 0, 0⟩ = some true ∧ ¬ w.InWindow ⟨1, 2, 0, 0, 0⟩ := by
  refine ⟨by decide +kernel, by decide, ?_, by decide, ?_⟩
  · refine ⟨1, ?_, .inr ?_⟩
    · unfold Exact.On
      decide
    · decide
  · unfold Exact.InWindow Exact.On
    decide

end ZilkerSdk.Rule

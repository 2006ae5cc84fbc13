import Mathlib.Algebra.Group.Int.Defs

/-!
# Sums and differences of times

Model of `timespecAdd` and `timespecDiff` in `libs/time/c/src/timeUtils.c`.  Seconds are integers,
as they do not overflow.  The sum of the nanoseconds is compared with an unsigned constant, and a
sum of exactly one second is not carried.
-/

namespace ZilkerSdk.Time

structure Timespec where
  tvSec : Int
  tvNsec : Int
  deriving DecidableEq

def timespecDiff (finish beginning : Timespec) : Timespec :=
  let tvSec := finish.tvSec - beginning.tvSec
  let tvNsec := finish.tvNsec - beginning.tvNsec
  if tvNsec < 0 then ⟨tvSec - 1, tvNsec + 1000000000⟩ else ⟨tvSec, tvNsec⟩

def timespecAdd (first second : Timespec) : Timespec :=
  let tvSec := first.tvSec + second.tvSec
  let tvNsec := first.tvNsec + second.tvNsec
  -- a negative number is a large one as `unsigned long`
  if tvNsec % 2 ^ 64 > 1000000000 then ⟨tvSec + 1, tvNsec - 1000000000⟩ else ⟨tvSec, tvNsec⟩

def Timespec.Normalised (t : Timespec) : Prop := 0 ≤ t.tvNsec ∧ t.tvNsec < 1000000000

section

variable {a b c : Timespec}

theorem timespecAdd_comm (a b : Timespec) : timespecAdd a b = timespecAdd b a := by
  simp only [timespecAdd, Int.add_comm]

variable (ha : a.Normalised)
include ha

/-- A whole second that is not carried is carried with the next sum, or never. -/
theorem timespecAdd_assoc (hb : b.Normalised) (hc : c.Normalised) :
    timespecAdd (timespecAdd a b) c = timespecAdd a (timespecAdd b c) := by
  unfold Timespec.Normalised at ha hb hc
  grind [timespecAdd]

theorem timespecDiff_timespecAdd (b : Timespec) :
    timespecDiff (timespecAdd a b) b = a := by
  unfold Timespec.Normalised at ha
  cases a
  grind [timespecAdd, timespecDiff]

theorem normalised_timespecDiff (hb : b.Normalised) :
    (timespecDiff a b).Normalised := by
  unfold Timespec.Normalised at *
  grind [timespecDiff]

theorem normalised_timespecAdd_iff (hb : b.Normalised) :
    (timespecAdd a b).Normalised ↔ a.tvNsec + b.tvNsec ≠ 1000000000 := by
  unfold Timespec.Normalised at *
  grind [timespecAdd]

/-- A whole second is lost where the nanoseconds of the difference were borrowed for zero. -/
theorem timespecAdd_timespecDiff_iff (hb : b.Normalised) :
    timespecAdd (timespecDiff a b) b = a ↔ (a.tvNsec = 0 → b.tvNsec = 0) := by
  unfold Timespec.Normalised at ha hb
  cases a
  grind [timespecAdd, timespecDiff]

end

/-- The laws hold exactly if the nanoseconds do not sum up to a second, and no nanoseconds are taken
from a time that has none. -/
theorem timespec_laws_iff {a b c : Timespec} (ha : a.Normalised) (hb : b.Normalised)
    (hc : c.Normalised) :
    ((timespecAdd a b).Normalised ∧ (timespecDiff a b).Normalised ∧
      timespecAdd a b = timespecAdd b a ∧
      timespecAdd (timespecAdd a b) c = timespecAdd a (timespecAdd b c) ∧
      timespecDiff (timespecAdd a b) b = a ∧ timespecAdd (timespecDiff a b) b = a) ↔
      a.tvNsec + b.tvNsec ≠ 1000000000 ∧ (a.tvNsec = 0 → b.tvNsec = 0) := by
  rw [normalised_timespecAdd_iff ha hb, timespecAdd_assoc ha hb hc, timespecDiff_timespecAdd ha b,
    timespecAdd_timespecDiff_iff ha hb, timespecAdd_comm a b]
  simp only [normalised_timespecDiff ha hb, true_and]

theorem timespec_laws_iff_carry :
    timespecAdd (timespecDiff ⟨2, 1⟩ ⟨1, 999999998⟩) ⟨1, 999999998⟩ = ⟨2, 1⟩ := by
  have h := @timespec_laws_iff ⟨2, 1⟩ ⟨1, 999999998⟩ ⟨0, 0⟩ ⟨by decide, by decide⟩
    ⟨by decide, by decide⟩ ⟨by decide, by decide⟩
  exact (h.mpr (by decide)).2.2.2.2.2

/-- Two halves of a second are no whole one. -/
theorem half_seconds_not_carried :
    timespecAdd ⟨0, 500000000⟩ ⟨0, 500000000⟩ = ⟨0, 1000000000⟩ := by
  decide

end ZilkerSdk.Time
